import MiniLisp.Proofs.Positions

/-!
The rewrites of an expansion. A run is followed together with its trace: where a macro call was rewritten,
and which code positions were gone down to. On a path into the trace the rewrites add up, those at the
positions above and those at the position itself. The limit on expansions is a limit on that number, and on
nothing else.
-/

namespace MiniLisp

open Eval

/-! Runs with their traces -/

/-- Why a run came to an end at a position. -/
inductive Ending where
  /-- The limit did not allow it to go on. -/
  | refused
  /-- The rewrite of a macro call failed. -/
  | failed (stop : Stop)
  /-- There was no fuel left. -/
  | cut

/-- What a run did at a position and below it. -/
inductive Trace where
  /-- No macro call is there; the code positions below were gone down to, as far as the run came. -/
  | settled (parts : List Trace)
  /-- A macro call was rewritten, and the run went on in its place. -/
  | rewritten (after : Trace)
  | ended (how : Ending)

namespace Trace

/-- Going down into a trace, past this many rewrites, leads there. -/
inductive Path : Trace → Nat → Trace → Prop where
  | here (t : Trace) : Path t 0 t
  | rewritten {after t : Trace} {k : Nat} : Path after k t → Path (.rewritten after) (k + 1) t
  | part {parts : List Trace} {part t : Trace} {k : Nat} : part ∈ parts → Path part k t →
      Path (.settled parts) k t

/-- On no path are there more rewrites. -/
def Within (n : Nat) (t : Trace) : Prop := ∀ k u, t.Path k u → k ≤ n

theorem within_settled {n : Nat} {parts : List Trace} :
    (settled parts).Within n ↔ ∀ t ∈ parts, t.Within n := by
  constructor
  · intro within t member k u path
    exact within k u (.part member path)
  · intro each k u path
    cases path with
    | here => exact Nat.zero_le n
    | part member path => exact each _ member k u path

theorem within_rewritten {n : Nat} {after : Trace} :
    (rewritten after).Within (n + 1) ↔ after.Within n := by
  constructor
  · intro within k u path
    exact Nat.le_of_succ_le_succ (within (k + 1) u (.rewritten path))
  · intro within k u path
    cases path with
    | here => exact Nat.zero_le _
    | rewritten path => exact Nat.succ_le_succ (within _ u path)

theorem not_within_rewritten (after : Trace) : ¬ (rewritten after).Within 0 := by
  intro within
  exact Nat.not_succ_le_zero 0 (within 1 after (.rewritten (.here after)))

theorem within_ended (n : Nat) (how : Ending) : (ended how).Within n := by
  intro k u path
  cases path
  exact Nat.zero_le n

end Trace

/-- A run that tells what it did, whatever comes of it. -/
abbrev Traced (τ α : Type) : Type := World → τ × (Except Stop α × World)

/-- The run itself. -/
def Traced.result {τ α : Type} (x : Traced τ α) : Eval α := fun w => (x w).2

def tracedEach (f : Value → Traced Trace Value) : List Value → Traced (List Trace) (List Value)
  | [], w => ([], (.ok [], w))
  | x :: rest, w => match f x w with
    | (t, (.error stop, v)) => ([t], (.error stop, v))
    | (t, (.ok a, v)) =>
        let others := tracedEach f rest v
        (t :: others.1, (others.2.1.map (a :: ·), others.2.2))

/-- Full expansion with its trace. -/
def traced (ev : Evaluator) (limit : Option Nat) (env : FrameId) :
    Nat → Nat → Value → Value → Traced Trace Value
  | 0, _, _, _, w => (.ended .cut, (.error .outOfFuel, w))
  | fuel + 1, depth, first, form, w => match Macro.ofForm? w.store env form with
    | some m => match expandCall ev m form env w with
      | (.error stop, v) => (.ended (.failed stop), (.error stop, v))
      | (.ok expansion, v) => match exceeds limit (depth + 1) with
        | some l =>
            (.rewritten (.ended .refused), (.error (.failed (Error.expansionLimit first l).reported), v))
        | none =>
            let run := traced ev limit env fuel (depth + 1) first expansion v
            (.rewritten run.1, run.2)
    | none => match form with
      | .list items =>
          let run := tracedEach (fun x => traced ev limit env fuel depth x x) (codePositions items) w
          (.settled run.1, (run.2.1.map fun code => .list (withCode items code), run.2.2))
      | atom => (.settled [], (.ok atom, w))

section Each

variable {f g : Value → Traced Trace Value} {P : Trace → Prop} {t : Trace} {x : Value}
  {xs : List Value} {w v : World}

theorem tracedEach_failed {stop : Stop} (first : f x w = (t, (.error stop, v))) :
    tracedEach f (x :: xs) w = ([t], (.error stop, v)) := by
  rw [tracedEach, first]

theorem tracedEach_went {a : Value} (first : f x w = (t, (.ok a, v))) :
    tracedEach f (x :: xs) w = (t :: (tracedEach f xs v).1,
      ((tracedEach f xs v).2.1.map (a :: ·), (tracedEach f xs v).2.2)) := by
  rw [tracedEach, first]

theorem tracedEach_result (f : Value → Traced Trace Value) (xs : List Value) :
    (tracedEach f xs).result = each (fun x => (f x).result) xs := by
  induction xs with
  | nil => rfl
  | cons x rest ih =>
      funext w
      rcases run : f x w with ⟨t, result, v⟩
      have first : (f x).result w = (result, v) := congrArg Prod.snd run
      rw [each, Traced.result]
      cases result with
      | error stop => rw [tracedEach_failed run, bind_of_error first]
      | ok a =>
          rw [tracedEach_went run, bind_of_ok first, bind_pure_run, ← ih]
          rfl

theorem tracedEach_parts (each : ∀ x v, P (f x v).1) : ∀ t ∈ (tracedEach f xs w).1, P t := by
  induction xs generalizing w with
  | nil => simp [tracedEach]
  | cons x rest ih =>
      have holds := each x w
      rcases run : f x w with ⟨t, result, v⟩
      rw [run] at holds
      cases result with
      | error stop =>
          rw [tracedEach_failed run]
          exact List.forall_mem_singleton.2 holds
      | ok a =>
          rw [tracedEach_went run]
          exact List.forall_mem_cons.2 ⟨holds, ih⟩

/-- Where `g` does what `f` does whenever that gives a value, it does so all along a list. -/
theorem tracedEach_of_ok (same : ∀ x v a v', (f x v).2 = (.ok a, v') → g x v = f x v ∧ P (f x v).1)
    {as : List Value} {w' : World} (run : (tracedEach f xs w).2 = (.ok as, w')) :
    tracedEach g xs w = tracedEach f xs w ∧ ∀ t ∈ (tracedEach f xs w).1, P t := by
  induction xs generalizing as w with
  | nil => exact ⟨rfl, by simp [tracedEach]⟩
  | cons x rest ih =>
      rcases first : f x w with ⟨t, result, v⟩
      cases result with
      | error stop =>
          rw [tracedEach_failed first] at run
          cases run
      | ok a =>
          obtain ⟨again, holds⟩ := same x w a v (congrArg Prod.snd first)
          rw [first] at again holds
          rw [tracedEach_went first] at run
          rcases others : (tracedEach f rest v).2 with ⟨result, v'⟩
          rw [others] at run
          cases result with
          | error stop => cases run
          | ok bs =>
              cases run
              obtain ⟨sameRest, allRest⟩ := ih others
              rw [tracedEach_went first, tracedEach_went again, sameRest]
              exact ⟨rfl, List.forall_mem_cons.2 ⟨holds, allRest⟩⟩

theorem tracedEach_of_parts (same : ∀ x v, P (f x v).1 → g x v = f x v)
    (parts : ∀ t ∈ (tracedEach f xs w).1, P t) : tracedEach g xs w = tracedEach f xs w := by
  induction xs generalizing w with
  | nil => rfl
  | cons x rest ih =>
      have again := same x w
      rcases first : f x w with ⟨t, result, v⟩
      rw [first] at again
      cases result with
      | error stop =>
          rw [tracedEach_failed first] at parts ⊢
          exact tracedEach_failed (again (parts t List.mem_cons_self))
      | ok a =>
          rw [tracedEach_went first] at parts ⊢
          obtain ⟨holds, others⟩ := List.forall_mem_cons.1 parts
          rw [tracedEach_went (again holds), ih others]

/-- The failure of the whole is the failure of a part. -/
theorem tracedEach_of_error {stop : Stop} {w' : World}
    (run : (tracedEach f xs w).2 = (.error stop, w')) :
    ∃ t ∈ (tracedEach f xs w).1, ∃ x v v', f x v = (t, (.error stop, v')) := by
  induction xs generalizing w with
  | nil => cases run
  | cons x rest ih =>
      rcases first : f x w with ⟨t, result, v⟩
      cases result with
      | error cause =>
          rw [tracedEach_failed first] at run ⊢
          cases run
          exact ⟨t, List.mem_cons_self, x, w, w', first⟩
      | ok a =>
          rw [tracedEach_went first] at run ⊢
          rcases others : (tracedEach f rest v).2 with ⟨result, v'⟩
          rw [others] at run
          cases result with
          | ok bs => cases run
          | error cause =>
              cases run
              obtain ⟨t', member, found⟩ := ih others
              exact ⟨t', List.mem_cons_of_mem t member, found⟩

end Each

section Runs

variable {ev : Evaluator} {limit : Option Nat} {env : FrameId} {fuel depth : Nat} {first form : Value}
  {m : Macro} {w v : World}

theorem traced_leaf (leaf : ∀ items, form ≠ .list items) :
    traced ev limit env (fuel + 1) depth first form w = (.settled [], (.ok form, w)) := by
  unfold traced
  simp only [Macro.ofForm?_of_leaf leaf]

theorem traced_list {items : List Value} (settled : Macro.ofForm? w.store env (.list items) = none) :
    traced ev limit env (fuel + 1) depth first (.list items) w =
      let run := tracedEach (fun x => traced ev limit env fuel depth x x) (codePositions items) w
      (.settled run.1, (run.2.1.map fun code => .list (withCode items code), run.2.2)) := by
  rw [traced, settled]

theorem traced_failing {stop : Stop} (call : Macro.ofForm? w.store env form = some m)
    (fails : expandCall ev m form env w = (.error stop, v)) :
    traced ev limit env (fuel + 1) depth first form w = (.ended (.failed stop), (.error stop, v)) := by
  unfold traced
  simp only [call, fails]

theorem traced_refused {expansion : Value} {l : Nat} (call : Macro.ofForm? w.store env form = some m)
    (rewrites : expandCall ev m form env w = (.ok expansion, v))
    (beyond : exceeds limit (depth + 1) = some l) :
    traced ev limit env (fuel + 1) depth first form w =
      (.rewritten (.ended .refused), (.error (.failed (Error.expansionLimit first l).reported), v)) := by
  unfold traced
  simp only [call, rewrites, beyond]

theorem traced_rewriting {expansion : Value} (call : Macro.ofForm? w.store env form = some m)
    (rewrites : expandCall ev m form env w = (.ok expansion, v))
    (allowed : exceeds limit (depth + 1) = none) :
    traced ev limit env (fuel + 1) depth first form w =
      let run := traced ev limit env fuel (depth + 1) first expansion v
      (.rewritten run.1, run.2) := by
  conv => lhs; unfold traced
  simp only [call, rewrites, allowed]

/-- Without its trace, a traced run is the run. -/
theorem traced_result (ev : Evaluator) (limit : Option Nat) (env : FrameId) (fuel depth : Nat)
    (first form : Value) : (traced ev limit env fuel depth first form).result =
      expandFrom ev limit env fuel depth first form := by
  induction fuel generalizing depth first form with
  | zero => rfl
  | succ fuel ih =>
      funext w
      rw [Traced.result]
      cases site ev env w form with
      | leaf leaf => rw [traced_leaf leaf, expandFrom_leaf leaf]
      | @list items settled =>
          have inside : (tracedEach (fun x => traced ev limit env fuel depth x x)
              (codePositions items)).result =
              each (fun x => expandFrom ev limit env fuel depth x x) (codePositions items) := by
            rw [tracedEach_result]
            exact congrArg (each · _) (funext fun x => ih depth x x)
          rw [traced_list settled, expandFrom_list settled, onCode_eq, LawfulMonad.bind_assoc]
          simp only [LawfulMonad.pure_bind]
          rw [bind_pure_run, ← inside]
          rfl
      | failing call fails => rw [traced_failing call fails, expandFrom_failing call fails]
      | rewriting call rewrites =>
          rw [expandFrom_rewriting call rewrites]
          unfold afterRewrite
          cases beyond : exceeds limit (depth + 1) with
          | some l =>
              rw [traced_refused call rewrites beyond]
              rfl
          | none =>
              rw [traced_rewriting call rewrites beyond, ← ih]
              rfl

variable {n L : Nat}

/-- A run that is `n` below its limit does at most `n + 1` rewrites on a path. -/
theorem traced_within (room : depth + n = L) :
    (traced ev (some L) env fuel depth first form w).1.Within (n + 1) := by
  induction fuel generalizing depth n first form w with
  | zero => exact Trace.within_ended _ _
  | succ fuel ih =>
      cases site ev env w form with
      | leaf leaf =>
          rw [traced_leaf leaf]
          exact Trace.within_settled.2 (by simp)
      | list settled =>
          rw [traced_list settled]
          apply Trace.within_settled.2
          exact tracedEach_parts fun x v => ih room
      | failing call fails =>
          rw [traced_failing call fails]
          exact Trace.within_ended _ _
      | rewriting call rewrites =>
          cases n with
          | zero =>
              -- The rewrite beyond the limit is still done; only then is the run refused.
              rw [traced_refused call rewrites (exceeds_at room)]
              exact Trace.within_rewritten.2 (Trace.within_ended 0 _)
          | succ n =>
              rw [traced_rewriting call rewrites (exceeds_below room)]
              exact Trace.within_rewritten.2 (ih (by omega))

/-- A value that is given under a limit is given without one, by the same steps. -/
theorem traced_of_ok (room : depth + n = L) {r : Value} {w' : World}
    (run : (traced ev (some L) env fuel depth first form w).2 = (.ok r, w')) :
    traced ev none env fuel depth first form w = traced ev (some L) env fuel depth first form w ∧
      (traced ev (some L) env fuel depth first form w).1.Within n := by
  induction fuel generalizing depth n first form w r w' with
  | zero => cases run
  | succ fuel ih =>
      cases site ev env w form with
      | leaf leaf =>
          rw [traced_leaf leaf, traced_leaf leaf]
          exact ⟨rfl, Trace.within_settled.2 (by simp)⟩
      | @list items settled =>
          rw [traced_list settled] at run
          dsimp only at run
          rcases inside : (tracedEach (fun x => traced ev (some L) env fuel depth x x)
            (codePositions items) w).2 with ⟨result, v⟩
          rw [inside] at run
          cases result with
          | error stop => cases run
          | ok code =>
              obtain ⟨same, within⟩ := tracedEach_of_ok (fun x v a v' run => ih room run) inside
              rw [traced_list settled, traced_list settled, same]
              exact ⟨rfl, Trace.within_settled.2 within⟩
      | failing call fails =>
          rw [traced_failing call fails] at run
          cases run
      | rewriting call rewrites =>
          cases n with
          | zero =>
              rw [traced_refused call rewrites (exceeds_at room)] at run
              cases run
          | succ n =>
              rw [traced_rewriting call rewrites (exceeds_below room)] at run
              obtain ⟨same, within⟩ := ih (show depth + 1 + n = L by omega) run
              rw [traced_rewriting call rewrites (exceeds_below room), traced_rewriting call rewrites rfl,
                same]
              exact ⟨rfl, Trace.within_rewritten.2 within⟩

/-- A run without a limit that stays within one is the run under that limit. -/
theorem traced_of_within (room : depth + n = L)
    (within : (traced ev none env fuel depth first form w).1.Within n) :
    traced ev (some L) env fuel depth first form w = traced ev none env fuel depth first form w := by
  induction fuel generalizing depth n first form w with
  | zero => rfl
  | succ fuel ih =>
      cases site ev env w form with
      | leaf leaf => rw [traced_leaf leaf, traced_leaf leaf]
      | list settled =>
          rw [traced_list settled] at within
          rw [traced_list settled, traced_list settled,
            tracedEach_of_parts (fun x v => ih room) (Trace.within_settled.1 within)]
      | failing call fails => rw [traced_failing call fails, traced_failing call fails]
      | rewriting call rewrites =>
          rw [traced_rewriting call rewrites rfl] at within
          cases n with
          | zero => exact absurd within (Trace.not_within_rewritten _)
          | succ n =>
              rw [traced_rewriting call rewrites (exceeds_below room), traced_rewriting call rewrites rfl,
                ih (by omega) (Trace.within_rewritten.1 within)]

/-- Why a run stops that is `n` below its limit. -/
inductive Halts (ev : Evaluator) (env : FrameId) (limit : Nat) (n : Nat) (t : Trace) : Stop → Prop where
  | cut {k : Nat} : t.Path k (.ended .cut) → Halts ev env limit n t .outOfFuel
  | failed {k : Nat} {m : Macro} {call : Value} {stop : Stop} {v v' : World} :
      t.Path k (.ended (.failed stop)) → expandCall ev m call env v = (.error stop, v') →
      Halts ev env limit n t stop
  | refused (call : Value) : t.Path (n + 1) (.ended .refused) →
      Halts ev env limit n t (.failed (Error.expansionLimit call limit).reported)

theorem Halts.settled {parts : List Trace} {t : Trace} {stop : Stop} (member : t ∈ parts)
    (halts : Halts ev env L n t stop) : Halts ev env L n (.settled parts) stop := by
  cases halts with
  | cut path => exact .cut (.part member path)
  | failed path fails => exact .failed (.part member path) fails
  | refused call path => exact .refused call (.part member path)

theorem Halts.rewritten {t : Trace} {stop : Stop} (halts : Halts ev env L n t stop) :
    Halts ev env L (n + 1) (.rewritten t) stop := by
  cases halts with
  | cut path => exact .cut (.rewritten path)
  | failed path fails => exact .failed (.rewritten path) fails
  | refused call path => exact .refused call (.rewritten path)

theorem traced_halts (room : depth + n = L) {stop : Stop} {w' : World}
    (run : (traced ev (some L) env fuel depth first form w).2 = (.error stop, w')) :
    Halts ev env L n (traced ev (some L) env fuel depth first form w).1 stop := by
  induction fuel generalizing depth n first form w w' with
  | zero =>
      cases run
      exact .cut (.here _)
  | succ fuel ih =>
      cases site ev env w form with
      | leaf leaf =>
          rw [traced_leaf leaf] at run
          cases run
      | @list items settled =>
          rw [traced_list settled] at run ⊢
          dsimp only at run ⊢
          rcases inside : (tracedEach (fun x => traced ev (some L) env fuel depth x x)
            (codePositions items) w).2 with ⟨result, v⟩
          rw [inside] at run
          cases result with
          | ok code => cases run
          | error cause =>
              cases run
              obtain ⟨t, member, x, u, u', part⟩ := tracedEach_of_error inside
              have halts := ih room (congrArg Prod.snd part)
              rw [part] at halts
              exact halts.settled member
      | failing call fails =>
          rw [traced_failing call fails] at run ⊢
          cases run
          exact .failed (.here _) fails
      | rewriting call rewrites =>
          cases n with
          | zero =>
              rw [traced_refused call rewrites (exceeds_at room)] at run ⊢
              cases run
              exact .refused first (.rewritten (.here _))
          | succ n =>
              rw [traced_rewriting call rewrites (exceeds_below room)] at run ⊢
              exact (ih (by omega) run).rewritten

end Runs

/-! Only the evaluation of its body makes a macro call go beyond a limit. -/

section Limit

variable {first : Value} {l : Nat}

theorem eq_of_reported_eq_limit {e : Error} (h : e.reported = .expansionLimit first l) :
    e = .expansionLimit first l := by
  unfold Error.reported at h
  split at h
  · exact h
  · cases h

theorem bindNames_ne_limit (bound : List (String × Value)) (params args : List Value) :
    bindNames bound params args ≠ .error (.expansionLimit first l) := by
  fun_induction bindNames bound params args with
  | case1 bound p ps a as name symbol ih => exact ih
  | case2 bound p ps a as e other =>
      intro same
      cases same
      cases p with
      | sym name => cases other
      | _ => cases eq_of_reported_eq_limit (Except.error.inj other)
  | case3 bound params args short => simp

theorem bindParams_ne_limit (params : Value) (args : List Value) :
    bindParams params args ≠ .error (.expansionLimit first l) := by
  unfold bindParams
  cases params with
  | list ps =>
      change (if _ then bindNames [] ps args else _) ≠ _
      split
      · exact bindNames_ne_limit [] ps args
      · intro same
        cases eq_of_reported_eq_limit (Except.error.inj same)
  | _ =>
      intro same
      cases eq_of_reported_eq_limit (Except.error.inj same)

theorem print_ne_limit (v : Value) : v.print ≠ .error (.expansionLimit first l) := by
  unfold Value.print
  split <;> simp

/-- A macro call that fails so was failed so by the evaluation of the macro's body. -/
theorem limit_of_expandCall {ev : Evaluator} {m : Macro} {call : Value} {env : FrameId} {v v' : World}
    (fails : expandCall ev m call env v = (.error (.failed (.expansionLimit first l)), v')) :
    ∃ frame u, (ev m.body frame u).1 = .error (.failed (.expansionLimit first l)) := by
  rcases bind_eq_error_iff.1 fails with entering | ⟨frame, u, -, rest⟩
  · rcases bind_eq_error_iff.1 entering with binding | ⟨bindings, u, -, opening⟩
    · exact absurd (lift_eq_error_iff.1 binding).1 (bindParams_ne_limit _ _)
    · cases opening
  · rcases bind_eq_error_iff.1 rest with evaluating | ⟨expansion, u, -, rest⟩
    · exact ⟨frame, u, congrArg Prod.fst evaluating⟩
    · rcases bind_eq_error_iff.1 rest with printing | ⟨before, u, -, rest⟩
      · exact absurd (lift_eq_error_iff.1 printing).1 (print_ne_limit _)
      · rcases bind_eq_error_iff.1 rest with printing | ⟨after, u, -, rest⟩
        · exact absurd (lift_eq_error_iff.1 printing).1 (print_ne_limit _)
        · cases rest

end Limit

/-- The limit on expansions is exact. A run under the limit `L` gives a value exactly when the run without
a limit gives it and on no path into that run are there more than `L` rewrites. Under the limit no path has
more than `L + 1` rewrites; and an error about the limit, unless the evaluation of a macro's body raised
it, comes at the end of a path with that many. -/
theorem expansion_limit_exact (ev : Evaluator) (fuel L : Nat) (form : Value) (env : FrameId) (w : World)
    (limited : (w.store.config env).maxExpansionDepth = some L) :
    let run := traced ev (some L) env fuel 0 form form w
    let free := traced ev none env fuel 0 form form w
    (run.2 = expandAll ev fuel form env w ∧ free.2 = expandFrom ev none env fuel 0 form form w) ∧
    (∀ r w', expandAll ev fuel form env w = (.ok r, w') ↔
      expandFrom ev none env fuel 0 form form w = (.ok r, w') ∧ ∀ k t, free.1.Path k t → k ≤ L) ∧
    (∀ k t, run.1.Path k t → k ≤ L + 1) ∧
    ∀ call l, (expandAll ev fuel form env w).1 = .error (.failed (.expansionLimit call l)) →
      (l = L ∧ run.1.Path (L + 1) (.ended .refused)) ∨
      ∃ k body frame v, run.1.Path k (.ended (.failed (.failed (.expansionLimit call l)))) ∧
        (ev body frame v).1 = .error (.failed (.expansionLimit call l)) := by
  intro run free
  have room : 0 + L = L := Nat.zero_add L
  have runResult : run.2 = expandAll ev fuel form env w := by
    change (traced ev (some L) env fuel 0 form form).result w = expandFrom ev _ env fuel 0 form form w
    rw [traced_result, limited]
  have freeResult : free.2 = expandFrom ev none env fuel 0 form form w :=
    congrFun (traced_result ev none env fuel 0 form form) w
  rw [← runResult, ← freeResult]
  refine ⟨⟨rfl, rfl⟩, ?_, traced_within room, ?_⟩
  · intro r w'
    constructor
    · intro gives
      obtain ⟨same, within⟩ := traced_of_ok room gives
      change free = run at same
      rw [same]
      exact ⟨gives, within⟩
    · rintro ⟨gives, within⟩
      have same : run = free := traced_of_within room within
      rw [same]
      exact gives
  · intro call l fails
    have halts := traced_halts room (Prod.ext fails rfl : run.2 = (_, run.2.2))
    generalize stopped : Stop.failed (.expansionLimit call l) = stop at halts
    cases halts with
    | cut path => cases stopped
    | failed path fails =>
        subst stopped
        obtain ⟨frame, v, raised⟩ := limit_of_expandCall fails
        exact .inr ⟨_, _, frame, v, path, raised⟩
    | refused first path =>
        injection stopped with reported
        injection eq_of_reported_eq_limit reported.symm with _ same
        exact .inl ⟨same.symm, path⟩

/-- `(seven)` is rewritten to `7` and `(again)` to itself. -/
def againStore : Store :=
  ⟨#[⟨[("seven", .proc .macroProc (.list []) (.int 7) none),
      ("again", .proc .macroProc (.list []) (.list [.sym "again"]) none)],
    .root { maxExpansionDepth := some 1 }⟩]⟩

def againWorld : World := ⟨againStore, ⟨[], "", .stopped⟩, #[]⟩

/-- Every body stands for itself. -/
def verbatim : Evaluator := fun body _ => return body

/-- One rewrite is enough for each of two calls side by side; the second one of `(again)` is refused. -/
theorem againWorld_limit_exact :
    let sevens := Value.list [.list [.sym "seven"], .list [.sym "seven"]]
    let again := Value.list [.sym "again"]
    (againWorld.store.config 0).maxExpansionDepth = some 1 ∧
    (expandAll verbatim 3 sevens 0 againWorld).1 = .ok (.list [.int 7, .int 7]) ∧
    (∀ k t, (traced verbatim none 0 3 0 sevens sevens againWorld).1.Path k t → k ≤ 1) ∧
    (expandAll verbatim 3 again 0 againWorld).1 = .error (.failed (.expansionLimit again 1)) ∧
    (traced verbatim (some 1) 0 3 0 again again againWorld).1.Path 2 (.ended .refused) := by
  intro sevens again
  have limited : (againWorld.store.config 0).maxExpansionDepth = some 1 := rfl
  have gives : (expandAll verbatim 3 sevens 0 againWorld).1 = .ok (.list [.int 7, .int 7]) := rfl
  have fails : (expandAll verbatim 3 again 0 againWorld).1 = .error (.failed (.expansionLimit again 1)) :=
    rfl
  obtain ⟨-, returns, -⟩ := expansion_limit_exact verbatim 3 1 sevens 0 againWorld limited
  obtain ⟨-, -, -, raises⟩ := expansion_limit_exact verbatim 3 1 again 0 againWorld limited
  refine ⟨limited, gives, ((returns _ _).1 (Prod.ext gives rfl)).2, fails, ?_⟩
  rcases raises again 1 fails with ⟨-, path⟩ | ⟨_, _, _, _, _, raised⟩
  · exact path
  · cases raised

end MiniLisp
