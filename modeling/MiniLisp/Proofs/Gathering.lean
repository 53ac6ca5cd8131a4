import Mathlib.Data.List.Induction
import MiniLisp.Proofs.Scope
import MiniLisp.Store.Update

/-!
Many definitions, one after the other or at once. Each name stays at the place of its first mention and
takes its last value. Pairs that come at once are gathered by key before the first of them is defined, so a
key that comes again gives its value to its first place even from behind the key that stops the rest.
-/

namespace MiniLisp

/-- Each of the names once, in the order of first mention, with the value that it was given last. -/
def latest (names : List String) (given : List (String × Value)) : List (String × Value) :=
  names.eraseDups.filterMap fun name => (given.reverse.lookup name).map (name, ·)

/-- The pairs before the first key that is no symbol. -/
def leading : List (Value × Value) → List (String × Value)
  | (.sym name, v) :: rest => (name, v) :: leading rest
  | _ => []

/-- The pairs whose keys are symbols. -/
def symbolPairs (pairs : List (Value × Value)) : List (String × Value) :=
  pairs.filterMap fun p => match p.1 with
    | .sym name => some (name, p.2)
    | _ => none

/-! Names in the order of first mention -/

section Names

theorem eraseDups_append_singleton (names : List String) (name : String) :
    (names ++ [name]).eraseDups =
      if name ∈ names then names.eraseDups else names.eraseDups ++ [name] := by
  rw [List.eraseDups_append]
  by_cases known : name ∈ names
  · simp [List.removeAll, known]
  · simp [List.removeAll, known, List.eraseDups_cons]

theorem map_fst_setBinding (name : String) (v : Value) (bindings : List (String × Value)) :
    (setBinding name v bindings).map Prod.fst =
      if name ∈ bindings.map Prod.fst then bindings.map Prod.fst
      else bindings.map Prod.fst ++ [name] := by
  induction bindings with
  | nil => rfl
  | cons b rest ih =>
      obtain ⟨n, u⟩ := b
      by_cases same : n = name
      · simp [setBinding, same]
      · rw [setBinding, if_neg same, List.map_cons, ih]
        by_cases later : name ∈ rest.map Prod.fst
        · simp [later]
        · have absent : name ∉ ((n, u) :: rest).map Prod.fst := by
            simp only [List.map_cons, List.mem_cons, not_or]
            exact ⟨Ne.symm same, later⟩
          rw [if_neg later, if_neg absent]
          rfl

/-- Bindings are told by their names, which are distinct, and by the value of each. -/
theorem eq_filterMap_lookup {bindings : List (String × Value)}
    (distinct : (bindings.map Prod.fst).Nodup) :
    bindings = (bindings.map Prod.fst).filterMap fun name => (bindings.lookup name).map (name, ·) := by
  induction bindings with
  | nil => rfl
  | cons b rest ih =>
      obtain ⟨n, u⟩ := b
      rw [List.map_cons, List.nodup_cons] at distinct
      have others : (rest.map Prod.fst).filterMap
            (fun name => (((n, u) :: rest).lookup name).map (name, ·)) =
          (rest.map Prod.fst).filterMap fun name => (rest.lookup name).map (name, ·) := by
        apply List.filterMap_congr
        intro name member
        have other : name ≠ n := fun same => distinct.1 (same ▸ member)
        rw [List.lookup_cons, beq_eq_false_iff_ne.2 other]
      simp only [List.map_cons, List.filterMap_cons, List.lookup_cons_self, Option.map_some, others]
      rw [← ih distinct.2]

theorem nodup_eraseDups (names : List String) : names.eraseDups.Nodup := by
  induction names using List.reverseRecOn with
  | nil => exact List.nodup_nil
  | append_singleton names name ih =>
      rw [eraseDups_append_singleton]
      by_cases known : name ∈ names
      · rw [if_pos known]
        exact ih
      · rw [if_neg known, List.nodup_append]
        refine ⟨ih, by simp, ?_⟩
        intro a earlier b new same
        rw [List.mem_singleton.1 new] at same
        rw [same] at earlier
        exact known (List.mem_eraseDups.1 earlier)

theorem lookup_reverse_append (given : List (String × Value)) (name : String) (v : Value)
    (other : String) :
    (given ++ [(name, v)]).reverse.lookup other =
      if other = name then some v else given.reverse.lookup other := by
  rw [List.reverse_append]
  by_cases same : other = name
  · simp [same]
  · simp [List.lookup_cons, beq_eq_false_iff_ne.2 same, same]

/-- Bindings of the names, each at the place of its first mention and with the value given last. -/
structure Lists (bindings : List (String × Value)) (names : List String)
    (given : List (String × Value)) : Prop where
  order : bindings.map Prod.fst = names.eraseDups
  values : ∀ name ∈ names, bindings.lookup name = given.reverse.lookup name

namespace Lists

variable {bindings given : List (String × Value)} {names : List String} {name : String}

theorem mem_iff (lists : Lists bindings names given) : name ∈ bindings.map Prod.fst ↔ name ∈ names := by
  rw [lists.order, List.mem_eraseDups]

theorem eq_latest (lists : Lists bindings names given) : bindings = latest names given := by
  have distinct : (bindings.map Prod.fst).Nodup := by
    rw [lists.order]
    exact nodup_eraseDups names
  rw [eq_filterMap_lookup distinct, lists.order, latest]
  apply List.filterMap_congr
  intro name member
  rw [lists.values name (List.mem_eraseDups.1 member)]

/-- A name that is mentioned once more. -/
theorem mention (lists : Lists bindings names given) (name : String) (v : Value) :
    Lists (setBinding name v bindings) (names ++ [name]) (given ++ [(name, v)]) where
  order := by
    rw [map_fst_setBinding, eraseDups_append_singleton, lists.order]
    simp only [List.mem_eraseDups]
  values other member := by
    rw [Store.lookup_setBinding, lookup_reverse_append]
    by_cases same : other = name
    · rw [if_pos same, if_pos same]
    · have earlier : other ∈ names := by
        rcases List.mem_append.1 member with earlier | new
        · exact earlier
        · exact absurd (List.mem_singleton.1 new) same
      rw [if_neg same, if_neg same, lists.values other earlier]

/-- A value for a name that is among them. -/
theorem give (lists : Lists bindings names given) (known : name ∈ names) (v : Value) :
    Lists (setBinding name v bindings) names (given ++ [(name, v)]) where
  order := by rw [map_fst_setBinding, if_pos (lists.mem_iff.2 known), lists.order]
  values other member := by
    rw [Store.lookup_setBinding, lookup_reverse_append, lists.values other member]

/-- A value for a name that is not. -/
theorem ignore (lists : Lists bindings names given) (unknown : name ∉ names) (v : Value) :
    Lists bindings names (given ++ [(name, v)]) where
  order := lists.order
  values other member := by
    have different : other ≠ name := fun same => unknown (same ▸ member)
    rw [lookup_reverse_append, if_neg different, lists.values other member]

end Lists

/-- Definitions one after the other. -/
def replay (given : List (String × Value)) : List (String × Value) :=
  given.foldl (fun bindings b => setBinding b.1 b.2 bindings) []

theorem replay_append_singleton (given : List (String × Value)) (name : String) (v : Value) :
    replay (given ++ [(name, v)]) = setBinding name v (replay given) := by
  rw [replay, List.foldl_append]
  rfl

theorem lookup_replay (given : List (String × Value)) (name : String) :
    (replay given).lookup name = given.reverse.lookup name := by
  induction given using List.reverseRecOn with
  | nil => rfl
  | append_singleton given b ih =>
      rw [replay_append_singleton, Store.lookup_setBinding, lookup_reverse_append, ih]

theorem lists_replay (given : List (String × Value)) :
    Lists (replay given) (given.map Prod.fst) given := by
  induction given using List.reverseRecOn with
  | nil => exact ⟨rfl, fun _ _ => rfl⟩
  | append_singleton given b ih =>
      rw [replay_append_singleton, List.map_append]
      exact ih.mention b.1 b.2

theorem mem_latest {names : List String} {given : List (String × Value)} {name : String} {v : Value} :
    (name, v) ∈ latest names given ↔ name ∈ names ∧ given.reverse.lookup name = some v := by
  simp [latest, List.mem_filterMap, List.mem_eraseDups]

/-- A name has one place among the latest values, from whichever end one looks. -/
theorem lookup_reverse_latest (names : List String) (given : List (String × Value)) (name : String) :
    (latest names given).reverse.lookup name =
      if name ∈ names then given.reverse.lookup name else none := by
  cases found : (latest names given).reverse.lookup name with
  | some v =>
      have member := mem_latest.1 (List.mem_reverse.1 (Store.mem_of_lookup found))
      rw [if_pos member.1, member.2]
  | none =>
      rw [List.lookup_eq_none_iff] at found
      by_cases known : name ∈ names
      · cases value : given.reverse.lookup name with
        | none => rw [if_pos known]
        | some v =>
            have different := found _ (List.mem_reverse.2 (mem_latest.2 ⟨known, value⟩))
            simp at different
      · rw [if_neg known]

end Names

/-! Many definitions at once -/

section Update

/-- Every key is a symbol. -/
def SymbolKeys (pairs : List (Value × Value)) : Prop := ∀ p ∈ pairs, ∃ name, p.1 = .sym name

variable {pairs : List (Value × Value)} {key v : Value} {name : String}

theorem leading_of_other (other : ∀ n, key ≠ .sym n) : leading ((key, v) :: pairs) = [] := by
  cases key with
  | sym n => exact absurd rfl (other n)
  | _ => rfl

theorem symbolKeys_cons_sym : SymbolKeys ((.sym name, v) :: pairs) ↔ SymbolKeys pairs := by
  simp [SymbolKeys]

theorem not_symbolKeys_cons (other : ∀ n, key ≠ .sym n) : ¬ SymbolKeys ((key, v) :: pairs) := by
  intro all
  obtain ⟨n, same⟩ := all _ List.mem_cons_self
  exact other n same

theorem leading_append_of_symbolKeys (all : SymbolKeys pairs) (more : List (Value × Value)) :
    leading (pairs ++ more) = leading pairs ++ leading more := by
  fun_induction leading pairs with
  | case1 n u rest ih => rw [List.cons_append, leading, ih (symbolKeys_cons_sym.1 all), List.cons_append]
  | case2 pairs other =>
      cases pairs with
      | nil => rfl
      | cons p rest =>
          obtain ⟨n, same⟩ := all p List.mem_cons_self
          exact absurd (by rw [← same]) (other n p.2 rest)

theorem leading_append_of_not_symbolKeys (mixed : ¬ SymbolKeys pairs) (more : List (Value × Value)) :
    leading (pairs ++ more) = leading pairs := by
  fun_induction leading pairs with
  | case1 n u rest ih =>
      rw [List.cons_append, leading, ih fun all => mixed (symbolKeys_cons_sym.2 all)]
  | case2 pairs other =>
      cases pairs with
      | nil => exact absurd (by simp [SymbolKeys]) mixed
      | cons p rest =>
          refine leading_of_other fun n same => ?_
          exact other n p.2 rest (by rw [← same])

theorem eq_of_sameKey {a b : Value} (same : Store.sameKey a b = true) : a = b := by
  unfold Store.sameKey at same
  split at same
  · rw [of_decide_eq_true same]
  · rw [of_decide_eq_true same]
  · cases same

theorem mem_map_fst_setPair {k : Value} :
    k ∈ (Store.setPair key v pairs).map Prod.fst ↔ k = key ∨ k ∈ pairs.map Prod.fst := by
  induction pairs with
  | nil => simp [Store.setPair]
  | cons p rest ih =>
      obtain ⟨k', u⟩ := p
      by_cases same : Store.sameKey k' key = true
      · rw [Store.setPair, if_pos same, eq_of_sameKey same]
        simp
      · rw [Store.setPair, if_neg same, List.map_cons, List.mem_cons, ih, List.map_cons, List.mem_cons,
          or_left_comm]

theorem symbolKeys_iff : SymbolKeys pairs ↔ ∀ k ∈ pairs.map Prod.fst, ∃ name, k = .sym name := by
  simp [SymbolKeys]

/-- A symbol among the leading keys, or after keys that are all symbols, is bound as in a frame. -/
theorem leading_setPair_bind (led : SymbolKeys pairs ∨ name ∈ (leading pairs).map Prod.fst) :
    leading (Store.setPair (.sym name) v pairs) = setBinding name v (leading pairs) := by
  fun_induction leading pairs with
  | case1 n u rest ih =>
      by_cases same : n = name
      · simp [Store.setPair, Store.sameKey, leading, setBinding, same]
      · have further : SymbolKeys rest ∨ name ∈ (leading rest).map Prod.fst := by
          rcases led with all | member
          · exact .inl (symbolKeys_cons_sym.1 all)
          · rw [List.map_cons, List.mem_cons] at member
            exact .inr (member.resolve_left (Ne.symm same))
        simp [Store.setPair, Store.sameKey, leading, setBinding, same, ih further]
  | case2 pairs other =>
      cases pairs with
      | nil => rfl
      | cons p rest =>
          have notSymbol : ∀ n, p.1 ≠ .sym n := fun n same => other n p.2 rest (by rw [← same])
          rcases led with all | member
          · exact absurd all (not_symbolKeys_cons notSymbol)
          · cases member

/-- Any other key leaves the leading pairs as they are. -/
theorem leading_setPair_stay
    (behind : ∀ name, key = .sym name → ¬ SymbolKeys pairs ∧ name ∉ (leading pairs).map Prod.fst) :
    leading (Store.setPair key v pairs) = leading pairs := by
  fun_induction leading pairs with
  | case1 n u rest ih =>
      have different : Store.sameKey (.sym n) key = false := by
        by_contra same
        have isName := eq_of_sameKey (Bool.not_eq_false _ ▸ same)
        exact (behind n isName.symm).2 (by simp)
      have further : ∀ name, key = .sym name →
          ¬ SymbolKeys rest ∧ name ∉ (leading rest).map Prod.fst := by
        intro name isName
        obtain ⟨broken, absent⟩ := behind name isName
        rw [List.map_cons, List.mem_cons, not_or] at absent
        exact ⟨fun all => broken (symbolKeys_cons_sym.2 all), absent.2⟩
      rw [Store.setPair, different, if_neg Bool.false_ne_true, leading, ih further]
  | case2 pairs other =>
      cases pairs with
      | nil => exact leading_of_other fun n isName => (behind n isName).1 (by simp [SymbolKeys])
      | cons p rest =>
          have notSymbol : ∀ n, p.1 ≠ .sym n := fun n same => other n p.2 rest (by rw [← same])
          rw [Store.setPair]
          split
          · exact leading_of_other notSymbol
          · exact leading_of_other notSymbol

theorem gather_append_singleton (pairs : List (Value × Value)) (key v : Value) :
    Store.gather (pairs ++ [(key, v)]) = Store.setPair key v (Store.gather pairs) := by
  rw [Store.gather, List.foldl_append]
  rfl

theorem mem_map_fst_gather {k : Value} :
    k ∈ (Store.gather pairs).map Prod.fst ↔ k ∈ pairs.map Prod.fst := by
  induction pairs using List.reverseRecOn with
  | nil => rfl
  | append_singleton pairs p ih =>
      rw [gather_append_singleton, mem_map_fst_setPair, ih]
      simp [or_comm]

theorem symbolKeys_gather : SymbolKeys (Store.gather pairs) ↔ SymbolKeys pairs := by
  simp only [symbolKeys_iff, mem_map_fst_gather]

theorem symbolPairs_append_sym (pairs : List (Value × Value)) (name : String) (v : Value) :
    symbolPairs (pairs ++ [(.sym name, v)]) = symbolPairs pairs ++ [(name, v)] :=
  List.filterMap_append

theorem symbolPairs_append_other (pairs : List (Value × Value)) (v : Value)
    (other : ∀ n, key ≠ .sym n) : symbolPairs (pairs ++ [(key, v)]) = symbolPairs pairs := by
  rw [symbolPairs, List.filterMap_append]
  cases key with
  | sym n => exact absurd rfl (other n)
  | _ => exact List.append_nil _

theorem leading_append_other (pairs : List (Value × Value)) (v : Value) (other : ∀ n, key ≠ .sym n) :
    leading (pairs ++ [(key, v)]) = leading pairs := by
  by_cases all : SymbolKeys pairs
  · rw [leading_append_of_symbolKeys all, leading_of_other other, List.append_nil]
  · exact leading_append_of_not_symbolKeys all _

theorem leading_sublist (pairs : List (Value × Value)) : (leading pairs).Sublist (symbolPairs pairs) := by
  fun_induction leading pairs with
  | case1 n u rest ih => exact ih.cons_cons (n, u)
  | case2 => exact List.nil_sublist _

/-- The leading pairs of the gathered ones list the leading names. -/
theorem lists_gather (pairs : List (Value × Value)) :
    Lists (leading (Store.gather pairs)) ((leading pairs).map Prod.fst) (symbolPairs pairs) := by
  -- One more pair binds a leading name, or it comes too late to matter for the leading ones.
  induction pairs using List.reverseRecOn with
  | nil => exact ⟨rfl, fun _ _ => rfl⟩
  | append_singleton pairs p ih =>
      obtain ⟨key, v⟩ := p
      rw [gather_append_singleton]
      by_cases symbol : ∃ name, key = .sym name
      · obtain ⟨name, rfl⟩ := symbol
        rw [symbolPairs_append_sym]
        by_cases all : SymbolKeys pairs
        · rw [leading_append_of_symbolKeys all, leading_setPair_bind (.inl (symbolKeys_gather.2 all)),
            List.map_append]
          exact ih.mention name v
        · rw [leading_append_of_not_symbolKeys all]
          by_cases led : name ∈ (leading pairs).map Prod.fst
          · rw [leading_setPair_bind (.inr (ih.mem_iff.2 led))]
            exact ih.give led v
          · have behind : ∀ n, Value.sym name = .sym n → ¬ SymbolKeys (Store.gather pairs) ∧
                n ∉ (leading (Store.gather pairs)).map Prod.fst := by
              intro n same
              cases same
              exact ⟨mt symbolKeys_gather.1 all, mt ih.mem_iff.1 led⟩
            rw [leading_setPair_stay behind]
            exact ih.ignore led v
      · have other : ∀ n, key ≠ .sym n := fun n same => symbol ⟨n, same⟩
        rw [leading_setPair_stay fun n same => absurd same (other n), leading_append_other _ _ other,
          symbolPairs_append_other _ _ other]
        exact ih

end Update

namespace Store

theorem bind_other (s : Store) (id : FrameId) {name : Value} (v : Value)
    (other : ∀ n, name ≠ .sym n) :
    s.bind id name v = .error (Error.typeMismatch (some .symbol) name).reported := by
  cases name with
  | sym n => exact absurd rfl (other n)
  | _ => rfl

/-- The first key that is no symbol stops the definitions, and those before it stay. -/
theorem bindEach_snd (s : Store) (id : FrameId) (pairs : List (Value × Value)) :
    (s.bindEach id pairs).2 = (leading pairs).foldl (fun t b => t.define id b.1 b.2) s := by
  induction pairs generalizing s with
  | nil => rfl
  | cons p rest ih =>
      obtain ⟨key, v⟩ := p
      by_cases symbol : ∃ name, key = .sym name
      · obtain ⟨name, rfl⟩ := symbol
        exact ih (s.define id name v)
      · have other : ∀ n, key ≠ .sym n := fun n same => symbol ⟨n, same⟩
        rw [bindEach, bind_other s id v other, leading_of_other other]
        rfl

theorem bindEach_ok_iff (s : Store) (id : FrameId) (pairs : List (Value × Value)) :
    (s.bindEach id pairs).1 = .ok () ↔ SymbolKeys pairs := by
  induction pairs generalizing s with
  | nil => exact iff_of_true rfl fun p member => by cases member
  | cons p rest ih =>
      obtain ⟨key, v⟩ := p
      by_cases symbol : ∃ name, key = .sym name
      · obtain ⟨name, rfl⟩ := symbol
        rw [symbolKeys_cons_sym]
        exact ih (s.define id name v)
      · have other : ∀ n, key ≠ .sym n := fun n same => symbol ⟨n, same⟩
        rw [bindEach, bind_other s id v other]
        exact iff_of_false (by simp) (not_symbolKeys_cons other)

end Store

end MiniLisp
