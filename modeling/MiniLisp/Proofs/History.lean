import MiniLisp.Proofs.Forest
import MiniLisp.Proofs.Gathering
import MiniLisp.Store.Listing

/-!
Frames and their history. Frames are made, and names are defined in them one at a time or many at once;
some of these requests fail, and some fail halfway. What came of them is a history: which frames were
made, with which links, and which definitions took place. Everything that can be read from the frames can
be told from the history alone.
-/

namespace MiniLisp

/-- What can be asked of a store: a frame with or without a frame around it, a frame inside another, a
definition, and many definitions at once. -/
inductive StoreRequest where
  | create (outer : Option FrameId) (config : Option Config)
  | child (outer : FrameId)
  | define (id : FrameId) (name v : Value)
  | update (id : FrameId) (pairs : List (Value × Value))

inductive Refusal where
  | config (e : ConfigError)
  | value (e : Error)

/-- What took place in a store. Frames have numbers in the order in which they were made. -/
inductive Event where
  | made (link : Link)
  | defined (id : FrameId) (name : String) (v : Value)

namespace StoreRequest

def run (s : Store) : StoreRequest → Except Refusal Unit × Store
  | .create outer config => match s.create outer config with
    | .ok (_, t) => (.ok (), t)
    | .error e => (.error (.config e), s)
  | .child outer => match s.create (some outer) none with
    | .ok (_, t) => (.ok (), t)
    | .error e => (.error (.config e), s)
  | .define id name v => match s.bind id name v with
    | .ok t => (.ok (), t)
    | .error e => (.error (.value e), s)
  | .update id pairs =>
      let done := s.update id pairs
      (done.1.mapError .value, done.2)

/-- The frames that a request names. -/
def frames : StoreRequest → List FrameId
  | .create outer _ => outer.toList
  | .child outer => [outer]
  | .define id _ _ => [id]
  | .update id _ => [id]

/-- What comes of a request. Many definitions at once are made of the keys before the first one that is
no symbol, and a key that comes again gives its value to the first place. -/
def events : StoreRequest → List Event
  | .create none config => [.made (.root (config.getD {}))]
  | .create (some outer) none => [.made (.child outer)]
  | .create (some _) (some _) => []
  | .child outer => [.made (.child outer)]
  | .define id (.sym name) v => [.defined id name v]
  | .define _ _ _ => []
  | .update id pairs =>
      (latest ((leading pairs).map Prod.fst) (symbolPairs pairs)).map fun b => .defined id b.1 b.2

/-- Requests in turn, whether they succeed or fail. -/
def runAll (s : Store) : List StoreRequest → Store
  | [] => s
  | request :: rest => runAll (request.run s).2 rest

/-- Each request is about frames that are there when its turn comes. -/
def FitAll (s : Store) : List StoreRequest → Prop
  | [] => True
  | request :: rest => (∀ id ∈ request.frames, id < s.size) ∧ FitAll (request.run s).2 rest

instance decidableFitAll : (s : Store) → (requests : List StoreRequest) → Decidable (FitAll s requests)
  | _, [] => .isTrue trivial
  | s, request :: rest =>
      have := decidableFitAll (request.run s).2 rest
      inferInstanceAs (Decidable (_ ∧ _))

end StoreRequest

/-- What took place, first things first. -/
abbrev History := List Event

namespace History

def links (h : History) : List Link :=
  h.filterMap fun
    | .made link => some link
    | .defined _ _ _ => none

/-- The definitions that took place in a frame. -/
def definitions (h : History) (id : FrameId) : List (String × Value) :=
  h.filterMap fun
    | .made _ => none
    | .defined i name v => if i = id then some (name, v) else none

/-- Some definition of the name took place in the frame. -/
def Defines (h : History) (id : FrameId) (name : String) : Prop := ∃ v, Event.defined id name v ∈ h

/-- The value of the last definition of the name in the frame. -/
def last? (h : History) (id : FrameId) (name : String) : Option Value :=
  (h.definitions id).reverse.lookup name

/-- The names defined in a frame, each once and in the order of first definition. -/
def names (h : History) (id : FrameId) : List String := ((h.definitions id).map Prod.fst).eraseDups

/-- What a listing shows of a frame. -/
def entries (h : History) (id : FrameId) : List (String × Value) :=
  (h.names id).filterMap fun name => (h.last? id name).map (name, ·)

/-- Going outward from a frame, link by link, leads through these frames. -/
inductive Outward (h : History) : FrameId → List FrameId → Prop where
  | last {id : FrameId} {config : Config} : h.links[id]? = some (.root config) → Outward h id [id]
  | next {id outer : FrameId} {frames : List FrameId} : h.links[id]? = some (.child outer) →
      Outward h outer frames → Outward h id (id :: frames)

def text (h : History) (id : FrameId) : String :=
  let shown := (h.entries id).map fun b => b.1 ++ ": " ++ b.2.inspect
  "\x7b" ++ String.intercalate ", " shown ++ "\x7d"

/-- The mark of a frame that has another around it. -/
def arrow (h : History) (id : FrameId) : String :=
  match h.links[id]? with
  | some (.child _) => " -> ..."
  | _ => ""

/-- Values that can be shown, in all of these frames. -/
def Shown (h : History) (frames : List FrameId) : Prop :=
  ∀ id ∈ frames, ∀ b ∈ h.entries id, b.2.printable = true

/-- What a frame answers, as far as the history goes; `frames` are the frame and those around it. -/
structure Answers (h : History) (s : Store) (id : FrameId) (frames : List FrameId) : Prop where
  outward : ∀ walk, h.Outward id walk ↔ walk = frames
  /-- A name is found in the nearest frame in which it was defined. -/
  found : ∀ name owner, s.find? id name = some owner ↔ ∃ inner outer,
    frames = inner ++ owner :: outer ∧ h.Defines owner name ∧ ∀ i ∈ inner, ¬ h.Defines i name
  missing : ∀ name, s.find? id name = none ↔ ∀ i ∈ frames, ¬ h.Defines i name
  /-- Its value is the last one that it was given there. -/
  value : ∀ name owner, s.find? id name = some owner → ∃ v, h.last? owner name = some v ∧
    s.lookup? id name = some v ∧ s.lookup id name = .ok v
  unbound : ∀ name, s.find? id name = none →
    s.lookup? id name = none ∧ s.lookup id name = .error (.unbound name)
  own : ∀ name, s.local? id name = h.last? id name
  names : (h.entries id).map Prod.fst = h.names id
  /-- The names of a listing, of one frame or of them all, are shown unless a value cannot be. -/
  listing : (h.Shown [id] → s.listing id = .ok (h.text id ++ h.arrow id)) ∧
    (¬ h.Shown [id] → s.listing id = .error .integerText)
  chainListing : (h.Shown frames → s.chainListing id = .ok ("<Environment chain: " ++
      String.intercalate " -> " (frames.map h.text) ++ ">")) ∧
    (¬ h.Shown frames → s.chainListing id = .error .integerText)

end History

/-! Requests act through their events -/

def Event.apply (s : Store) : Event → Store
  | .made link => s.push ⟨[], link⟩
  | .defined id name v => s.define id name v

/-- An event about frames that are there. -/
def Event.Fits (s : Store) : Event → Prop
  | .made (.root _) => True
  | .made (.child outer) => outer < s.size
  | .defined id _ _ => id < s.size

namespace StoreRequest

theorem run_update_ok_iff (s : Store) (id : FrameId) (pairs : List (Value × Value)) :
    ((update id pairs).run s).1 = .ok () ↔ SymbolKeys pairs := by
  rw [← symbolKeys_gather, ← Store.bindEach_ok_iff s id]
  change (s.update id pairs).1.mapError Refusal.value = .ok () ↔ (s.update id pairs).1 = .ok ()
  cases (s.update id pairs).1 <;> simp [Except.mapError]

/-- What a request does to the store is what its events do, one after the other. -/
theorem run_snd (request : StoreRequest) (s : Store) :
    (request.run s).2 = request.events.foldl Event.apply s := by
  cases request with
  | create outer config => cases outer <;> cases config <;> rfl
  | child outer => rfl
  | define id name v =>
      cases name with
      | sym n => rfl
      | _ => rfl
  | update id pairs =>
      change (s.bindEach id (Store.gather pairs)).2 = _
      rw [Store.bindEach_snd, (lists_gather pairs).eq_latest, events, List.foldl_map]
      rfl

/-- A request about frames that are there has events about frames that are there. -/
theorem fits_of_mem_events {request : StoreRequest} {s : Store}
    (fits : ∀ id ∈ request.frames, id < s.size) {event : Event} (member : event ∈ request.events) :
    event.Fits s := by
  cases request with
  | create outer config =>
      cases outer with
      | none =>
          obtain rfl := List.mem_singleton.1 member
          trivial
      | some o =>
          cases config with
          | none =>
              obtain rfl := List.mem_singleton.1 member
              exact fits o List.mem_cons_self
          | some c => cases member
  | child o =>
      obtain rfl := List.mem_singleton.1 member
      exact fits o List.mem_cons_self
  | define id name v =>
      cases name with
      | sym n =>
          obtain rfl := List.mem_singleton.1 member
          exact fits id List.mem_cons_self
      | _ => cases member
  | update id pairs =>
      obtain ⟨b, -, rfl⟩ := List.mem_map.1 member
      exact fits id List.mem_cons_self

end StoreRequest

theorem Event.Fits.apply {event next : Event} {s : Store} (fits : next.Fits s) :
    next.Fits (event.apply s) := by
  have more : s.size ≤ (event.apply s).size := by
    cases event with
    | made link => simp [Event.apply]
    | defined id name v => simp [Event.apply]
  cases next with
  | made link =>
      cases link with
      | root config => trivial
      | child outer => exact Nat.lt_of_lt_of_le fits more
  | defined id name v => exact Nat.lt_of_lt_of_le fits more

namespace History

variable (h : History)

theorem links_made (link : Link) : links (h ++ [.made link]) = h.links ++ [link] := List.filterMap_append

theorem links_defined (id : FrameId) (name : String) (v : Value) :
    links (h ++ [.defined id name v]) = h.links := by
  simp [links]

theorem definitions_made (link : Link) (id : FrameId) :
    definitions (h ++ [.made link]) id = h.definitions id := by
  simp [definitions]

theorem definitions_defined (id : FrameId) (name : String) (v : Value) (i : FrameId) :
    definitions (h ++ [.defined id name v]) i =
      if id = i then h.definitions i ++ [(name, v)] else h.definitions i := by
  by_cases same : id = i
  · simp [definitions, same]
  · simp [definitions, same]

theorem mem_definitions {h : History} {id : FrameId} {name : String} {v : Value} :
    (name, v) ∈ h.definitions id ↔ Event.defined id name v ∈ h := by
  rw [definitions, List.mem_filterMap]
  constructor
  · rintro ⟨event, member, same⟩
    cases event with
    | made link => cases same
    | defined i n u =>
        by_cases here : i = id
        · simp only [if_pos here, Option.some.injEq, Prod.mk.injEq] at same
          obtain ⟨rfl, rfl⟩ := same
          exact here ▸ member
        · simp only [if_neg here, reduceCtorEq] at same
  · intro member
    exact ⟨_, member, if_pos rfl⟩

theorem last?_isSome_iff {h : History} {id : FrameId} {name : String} :
    (h.last? id name).isSome ↔ h.Defines id name := by
  rw [last?, List.lookup_isSome_iff]
  constructor
  · rintro ⟨⟨n, v⟩, member, same⟩
    obtain rfl : name = n := eq_of_beq same
    exact ⟨v, mem_definitions.1 (List.mem_reverse.1 member)⟩
  · rintro ⟨v, member⟩
    exact ⟨(name, v), List.mem_reverse.2 (mem_definitions.2 member), beq_self_eq_true name⟩

theorem map_fst_entries (h : History) (id : FrameId) : (h.entries id).map Prod.fst = h.names id := by
  change (latest ((h.definitions id).map Prod.fst) (h.definitions id)).map Prod.fst = _
  rw [← (lists_replay _).eq_latest, (lists_replay _).order]
  rfl

theorem Outward.unique {h : History} {id : FrameId} {walk walk' : List FrameId}
    (first : h.Outward id walk) (second : h.Outward id walk') : walk = walk' := by
  induction first generalizing walk' with
  | last link =>
      cases second with
      | last => rfl
      | next link' => cases link.symm.trans link'
  | @next id outer frames link _ ih =>
      cases second with
      | last link' => cases link.symm.trans link'
      | next link' further =>
          cases link.symm.trans link'
          rw [ih further]

end History

/-- A store that the history describes, frame by frame. -/
structure History.Describes (h : History) (s : Store) : Prop where
  size : s.size = h.links.length
  link : ∀ id, s.link? id = h.links[id]?
  bindings : ∀ id, (s.bindings? id).getD [] = replay (h.definitions id)
  linked : s.Linked

namespace History.Describes

variable {h : History} {s : Store}

theorem nil : History.Describes [] Store.empty where
  size := rfl
  link _ := rfl
  bindings _ := rfl
  linked id f outer here := by cases here

theorem made (described : h.Describes s) {link : Link} (fits : (Event.made link).Fits s) :
    History.Describes (h ++ [.made link]) (s.push ⟨[], link⟩) where
  size := by rw [Store.size_push, links_made, List.length_append, described.size, List.length_singleton]
  link id := by
    rw [Store.link?_push, links_made, described.link, described.size, List.getElem?_append]
    by_cases new : id = h.links.length
    · simp [new]
    · by_cases old : id < h.links.length
      · rw [if_neg new, if_pos old]
      · have beyond : h.links.length < id := Nat.lt_of_le_of_ne (Nat.le_of_not_lt old) (Ne.symm new)
        rw [if_neg new, if_neg old, List.getElem?_eq_none (Nat.le_of_lt beyond),
          List.getElem?_eq_none (Nat.sub_pos_of_lt beyond)]
  bindings id := by
    rw [definitions_made, ← described.bindings id, Store.bindings?, Store.get?_push_eq]
    by_cases new : id = s.size
    · have missing : s.get? id = none := by
        rw [new]
        exact Array.getElem?_eq_none (Nat.le_refl _)
      rw [if_pos new, Store.bindings?, missing]
      rfl
    · rw [if_neg new, Store.bindings?]
  linked := by
    cases link with
    | child outer => exact described.linked.child fits
    | root config =>
        intro id f outer here link
        rw [Store.get?_push_eq] at here
        by_cases new : id = s.size
        · rw [if_pos new] at here
          cases here
          cases link
        · rw [if_neg new] at here
          exact described.linked id f outer here link

theorem defined (described : h.Describes s) {id : FrameId} (present : id < s.size) (name : String)
    (v : Value) : History.Describes (h ++ [.defined id name v]) (s.define id name v) where
  size := by rw [Store.size_define, links_defined, described.size]
  link i := by rw [Store.link?_define, links_defined, described.link]
  bindings i := by
    rw [definitions_defined]
    by_cases same : id = i
    · subst same
      obtain ⟨f, here⟩ := Store.exists_frame present
      have before := described.bindings id
      rw [if_pos rfl, replay_append_singleton, ← before, Store.bindings?_define, Store.bindings?, here]
      rfl
    · rw [if_neg same, ← described.bindings i, Store.bindings?, Store.get?_define, if_neg same,
        Store.bindings?]
  linked := described.linked.define

/-- One event. -/
theorem apply (described : h.Describes s) {event : Event} (fits : event.Fits s) :
    History.Describes (h ++ [event]) (event.apply s) := by
  cases event with
  | made link => exact described.made fits
  | defined id name v => exact described.defined fits name v

theorem foldl (described : h.Describes s) {events : List Event} (fits : ∀ e ∈ events, e.Fits s) :
    History.Describes (h ++ events) (events.foldl Event.apply s) := by
  induction events generalizing h s with
  | nil =>
      rw [List.append_nil]
      exact described
  | cons event rest ih =>
      rw [List.forall_mem_cons] at fits
      rw [List.append_cons]
      exact ih (described.apply fits.1) fun e member => (fits.2 e member).apply

/-- Requests in turn. -/
theorem runAll (described : h.Describes s) {requests : List StoreRequest}
    (fits : StoreRequest.FitAll s requests) :
    History.Describes (h ++ requests.flatMap StoreRequest.events) (StoreRequest.runAll s requests) := by
  induction requests generalizing h s with
  | nil =>
      rw [List.flatMap_nil, List.append_nil]
      exact described
  | cons request rest ih =>
      have first := described.foldl fun e member => StoreRequest.fits_of_mem_events fits.1 member
      rw [← StoreRequest.run_snd] at first
      rw [List.flatMap_cons, ← List.append_assoc]
      exact ih first fits.2

theorem frame (described : h.Describes s) {id : FrameId} (present : id < s.size) :
    ∃ f, s.get? id = some f ∧ f.bindings = h.entries id ∧ h.links[id]? = some f.link := by
  obtain ⟨f, here⟩ := Store.exists_frame present
  have bindings := described.bindings id
  have link := described.link id
  rw [Store.bindings?, here, Option.map_some, Option.getD_some, (lists_replay _).eq_latest] at bindings
  rw [Store.link?, here, Option.map_some] at link
  exact ⟨f, here, bindings, link.symm⟩

theorem local? (described : h.Describes s) (id : FrameId) (name : String) :
    s.local? id name = h.last? id name := by
  have bindings := congrArg (List.lookup name) (described.bindings id)
  rw [lookup_replay] at bindings
  rw [Store.local?_eq_bindings?, History.last?, ← bindings]
  cases s.bindings? id <;> rfl

theorem local?_isSome_iff (described : h.Describes s) (id : FrameId) (name : String) :
    (s.local? id name).isSome ↔ h.Defines id name := by
  rw [described.local?, last?_isSome_iff]

theorem outward_of_walk (described : h.Describes s) {id : FrameId} {walk : List FrameId}
    (steps : s.Walk id walk) : h.Outward id walk := by
  have linkOf {id : FrameId} {f : Frame} (here : s.get? id = some f) : h.links[id]? = some f.link := by
    rw [← described.link, Store.link?, here, Option.map_some]
  induction steps with
  | @last id f here none =>
      cases link : f.link with
      | root config => exact .last (by rw [linkOf here, link])
      | child outer =>
          rw [Frame.outer?, link] at none
          cases none
  | @next id outer f frames here some _ ih =>
      cases link : f.link with
      | root config =>
          rw [Frame.outer?, link] at some
          cases some
      | child o =>
          rw [Frame.outer?, link] at some
          cases some
          exact .next (by rw [linkOf here, link]) ih

theorem outward_iff (described : h.Describes s) {id : FrameId} (present : id < s.size)
    (walk : List FrameId) : h.Outward id walk ↔ walk = s.chain id := by
  have chain := described.outward_of_walk (described.linked.walk present)
  constructor
  · intro other
    exact other.unique chain
  · rintro rfl
    exact chain

theorem find?_eq_some_iff (described : h.Describes s) (id : FrameId) (name : String)
    (owner : FrameId) :
    s.find? id name = some owner ↔ ∃ inner outer, s.chain id = inner ++ owner :: outer ∧
      h.Defines owner name ∧ ∀ i ∈ inner, ¬ h.Defines i name := by
  simp only [Store.find?, List.find?_eq_some_iff_append, Bool.not_eq_true', Bool.eq_false_iff, ne_eq,
    described.local?_isSome_iff]
  constructor
  · rintro ⟨defined, inner, outer, chain, nearer⟩
    exact ⟨inner, outer, chain, defined, nearer⟩
  · rintro ⟨inner, outer, chain, defined, nearer⟩
    exact ⟨defined, inner, outer, chain, nearer⟩

theorem find?_eq_none_iff (described : h.Describes s) (id : FrameId) (name : String) :
    s.find? id name = none ↔ ∀ i ∈ s.chain id, ¬ h.Defines i name := by
  simp only [Store.find?, List.find?_eq_none, described.local?_isSome_iff]

theorem value_of_find? (described : h.Describes s) {id owner : FrameId} {name : String}
    (found : s.find? id name = some owner) :
    ∃ v, h.last? owner name = some v ∧ s.lookup? id name = some v ∧ s.lookup id name = .ok v := by
  have isSome := List.find?_some found
  obtain ⟨v, here⟩ := Option.isSome_iff_exists.1 isSome
  have value : s.lookup? id name = some v := by
    rw [Store.lookup?, found, Option.bind_some, here]
  refine ⟨v, ?_, value, ?_⟩
  · rw [← described.local?, here]
  · rw [Store.lookup, value]

theorem unbound_of_find? {id : FrameId} {name : String} (missing : s.find? id name = none) :
    s.lookup? id name = none ∧ s.lookup id name = .error (.unbound name) := by
  have value : s.lookup? id name = none := by rw [Store.lookup?, missing, Option.bind_none]
  refine ⟨value, ?_⟩
  rw [Store.lookup, value]
  rfl

/-- The frame shows what the history has of it. -/
theorem shows (described : h.Describes s) {id : FrameId} (present : id < s.size) :
    ∃ f, s.get? id = some f ∧ f.listing = h.text id ∧ h.links[id]? = some f.link ∧
      (f.printable = true ↔ h.Shown [id]) := by
  obtain ⟨f, here, bindings, link⟩ := described.frame present
  refine ⟨f, here, ?_, link, ?_⟩
  · rw [Frame.listing, bindings]
    rfl
  · rw [Frame.printable, bindings, Value.allPrintable_iff]
    simp only [Shown, List.mem_singleton, forall_eq, List.forall_mem_map]

theorem listing (described : h.Describes s) {id : FrameId} (present : id < s.size) :
    (h.Shown [id] → s.listing id = .ok (h.text id ++ h.arrow id)) ∧
      (¬ h.Shown [id] → s.listing id = .error .integerText) := by
  obtain ⟨f, here, text, link, printable⟩ := described.shows present
  rw [Store.listing, here]
  constructor
  · intro shown
    simp only [printable.2 shown, if_true, arrow, link, Frame.outer?, text]
    cases f.link with
    | root config => exact congrArg _ (String.append_empty).symm
    | child outer => rfl
  · intro hidden
    rw [← printable] at hidden
    simp only [hidden, Bool.false_eq_true, if_false]

theorem shown_cons {id : FrameId} {frames : List FrameId} :
    h.Shown (id :: frames) ↔ h.Shown [id] ∧ h.Shown frames := by
  simp only [Shown, List.forall_mem_cons, List.mem_singleton, forall_eq]

theorem showsAll (described : h.Describes s) {frames : List FrameId}
    (present : ∀ i ∈ frames, i < s.size) :
    ((frames.filterMap s.get?).all Frame.printable = true ↔ h.Shown frames) ∧
      (frames.filterMap s.get?).map Frame.listing = frames.map h.text := by
  induction frames with
  | nil => exact ⟨iff_of_true rfl fun i member => (by cases member), rfl⟩
  | cons i rest ih =>
      rw [List.forall_mem_cons] at present
      obtain ⟨f, here, text, -, printable⟩ := described.shows present.1
      obtain ⟨all, texts⟩ := ih present.2
      rw [List.filterMap_cons, here]
      refine ⟨?_, ?_⟩
      · rw [List.all_cons, Bool.and_eq_true, printable, all]
        exact shown_cons.symm
      · rw [List.map_cons, text, texts, List.map_cons]

theorem chainListing (described : h.Describes s) (id : FrameId) :
    (h.Shown (s.chain id) → s.chainListing id = .ok ("<Environment chain: " ++
        String.intercalate " -> " ((s.chain id).map h.text) ++ ">")) ∧
      (¬ h.Shown (s.chain id) → s.chainListing id = .error .integerText) := by
  have present : ∀ i ∈ s.chain id, i < s.size := fun _ => Store.lt_size_of_mem_chainUpTo
  obtain ⟨all, texts⟩ := described.showsAll present
  rw [Store.chainListing]
  constructor
  · intro shown
    simp only [all.2 shown, if_true, texts]
  · intro hidden
    rw [← all] at hidden
    simp only [hidden, Bool.false_eq_true, if_false]

theorem answers (described : h.Describes s) {id : FrameId} (present : id < s.size) :
    h.Answers s id (s.chain id) where
  outward := described.outward_iff present
  found := described.find?_eq_some_iff id
  missing := described.find?_eq_none_iff id
  value _ _ found := described.value_of_find? found
  unbound _ missing := unbound_of_find? missing
  own := described.local? id
  names := map_fst_entries h id
  listing := described.listing present
  chainListing := described.chainListing id

end History.Describes

namespace StoreRequest

theorem run_define_ok_iff (s : Store) (id : FrameId) (name v : Value) :
    ((define id name v).run s).1 = .ok () ↔ ∃ n, name = .sym n := by
  cases name with
  | sym n => exact iff_of_true rfl ⟨n, rfl⟩
  | _ => exact iff_of_false (by simp [run, Store.bind, Value.expectSymbol, fail]) (by simp)

theorem definitions_update (h : History) (id : FrameId) (pairs : List (Value × Value)) (i : FrameId) :
    History.definitions (h ++ (update id pairs).events) i = h.definitions i ++
      if i = id then latest ((leading pairs).map Prod.fst) (symbolPairs pairs) else [] := by
  rw [History.definitions, List.filterMap_append, events, List.filterMap_map]
  by_cases same : i = id
  · simp [same, History.definitions]
  · simp [same, Ne.symm same, History.definitions]

/-- After many definitions at once, the leading names have the values they were given last. -/
theorem local?_run_update {h : History} {s : Store} (described : h.Describes s) {id : FrameId}
    (present : id < s.size) (pairs : List (Value × Value)) (i : FrameId) (name : String) :
    ((update id pairs).run s).2.local? i name =
      if i = id ∧ name ∈ (leading pairs).map Prod.fst then (symbolPairs pairs).reverse.lookup name
      else s.local? i name := by
  have after : History.Describes (h ++ (update id pairs).events) ((update id pairs).run s).2 := by
    rw [run_snd]
    exact described.foldl fun e member => fits_of_mem_events (by simpa [frames] using present) member
  rw [after.local?, described.local?, History.last?, definitions_update, List.reverse_append,
    List.lookup_append]
  by_cases here : i = id
  · by_cases led : name ∈ (leading pairs).map Prod.fst
    · -- A leading name is among the pairs, so it has a value there.
      obtain ⟨p, member, rfl⟩ := List.mem_map.1 led
      have given : p ∈ (symbolPairs pairs).reverse :=
        List.mem_reverse.2 ((leading_sublist pairs).subset member)
      have isSome := List.lookup_isSome_iff.2 ⟨p, given, beq_self_eq_true p.1⟩
      obtain ⟨v, value⟩ := Option.isSome_iff_exists.1 isSome
      simp [here, led, lookup_reverse_latest, value]
    · simp [here, led, lookup_reverse_latest, History.last?]
  · simp [here, History.last?]

end StoreRequest

/-- After any requests, whether they succeeded or failed, the frames answer what the history of the
requests says. A definition that fails changes nothing, and many definitions of which one fails leave
exactly those before it. -/
theorem frames_answer_from_history (requests : List StoreRequest)
    (fits : StoreRequest.FitAll Store.empty requests) :
    let s := StoreRequest.runAll Store.empty requests
    let h : History := requests.flatMap StoreRequest.events
    s.size = h.links.length ∧
    (∀ id, id < s.size → ∃ frames, h.Answers s id frames) ∧
    (∀ id name v, (((StoreRequest.define id name v).run s).1 = .ok () ↔ ∃ n, name = .sym n) ∧
      (((StoreRequest.define id name v).run s).1 ≠ .ok () →
        ((StoreRequest.define id name v).run s).2 = s)) ∧
    ∀ id pairs, id < s.size →
      (((StoreRequest.update id pairs).run s).1 = .ok () ↔ SymbolKeys pairs) ∧
      ∀ i name, ((StoreRequest.update id pairs).run s).2.local? i name =
        if i = id ∧ name ∈ (leading pairs).map Prod.fst then (symbolPairs pairs).reverse.lookup name
        else s.local? i name := by
  intro s h
  have described : h.Describes s := History.Describes.nil.runAll fits
  refine ⟨described.size, fun id present => ⟨_, described.answers present⟩, ?_, ?_⟩
  · intro id name v
    refine ⟨StoreRequest.run_define_ok_iff s id name v, fun failed => ?_⟩
    rw [ne_eq, StoreRequest.run_define_ok_iff] at failed
    rw [StoreRequest.run, Store.bind_other s id v fun n same => failed ⟨n, same⟩]
  · intro id pairs present
    exact ⟨StoreRequest.run_update_ok_iff s id pairs,
      StoreRequest.local?_run_update described present pairs⟩

/-- Two frames; a definition and many at once that fail, a frame that is refused, a name that is defined
outside after the inner frame was made, and a foreign value. -/
def shadowRequests : List StoreRequest :=
  [.create none none, .child 0, .define 0 (.sym "x") (.int 1), .define 1 (.str "x") (.int 2),
    .update 1 [(.sym "y", .int 3), (.str "s", .int 4), (.sym "y", .int 5), (.sym "x", .int 6)],
    .create (some 0) (some {}), .define 0 (.sym "z") .foreign, .define 0 (.sym "x") (.int 7)]

/-- In the inner frame only `y` is bound, to the value it was given behind the key that failed. -/
theorem shadowRequests_answer :
    StoreRequest.FitAll Store.empty shadowRequests ∧
    (StoreRequest.runAll Store.empty shadowRequests).size = 2 ∧
    (∃ frames, History.Answers (shadowRequests.flatMap StoreRequest.events)
      (StoreRequest.runAll Store.empty shadowRequests) 1 frames) ∧
    (StoreRequest.runAll Store.empty shadowRequests).lookup? 1 "y" = some (.int 5) ∧
    (StoreRequest.runAll Store.empty shadowRequests).lookup? 1 "x" = some (.int 7) ∧
    (StoreRequest.runAll Store.empty shadowRequests).lookup? 1 "z" = some .foreign := by
  have fits : StoreRequest.FitAll Store.empty shadowRequests := by decide
  obtain ⟨-, answers, -, -⟩ := frames_answer_from_history shadowRequests fits
  exact ⟨fits, rfl, answers 1 (by decide), rfl, rfl, rfl⟩

end MiniLisp
