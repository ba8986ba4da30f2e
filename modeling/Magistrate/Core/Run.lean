import Mathlib.Data.List.Basic
import Mathlib.Logic.Function.Basic

/-!
# Fallible transactions and runs

A transaction either commits the state it computed or raises, and a raise
discards every write. What a loop keeps and what a computation raises follow from
its turns and its parts. A run is the fold of a step function over a list of
inputs, so an interleaving is one list. Invariants, monotone relations and
conditions on the steps of a run are packaged here once.
-/

namespace Magistrate

universe u

section Transaction

variable {ε α σ : Type*}

/-- The exception raised when a guard is met; the guarded block continues otherwise. -/
def raiseIf (c : Prop) [Decidable c] (e : ε) : Except ε Unit :=
  if c then .error e else .ok ()

/-- A guard is passed exactly when its condition fails. -/
@[simp] theorem raiseIf_eq_ok {c : Prop} [Decidable c] {e : ε} {u : Unit} :
    raiseIf c e = .ok u ↔ ¬c := by
  by_cases h : c <;> simp [raiseIf, h]

/-- A guarded block raises when its condition is met. -/
theorem raiseIf_error {c : Prop} [Decidable c] (h : c) (e : ε) : raiseIf c e = .error e :=
  if_pos h

/-- A guarded block goes on when its condition fails. -/
theorem raiseIf_ok {c : Prop} [Decidable c] (h : ¬c) (e : ε) : raiseIf c e = .ok () :=
  if_neg h

/-- The value of an option; the block raises when there is none. -/
def orRaise (value : Option α) (e : ε) : Except ε α :=
  match value with
  | some a => .ok a
  | none => .error e

/-- An option is passed exactly when it has a value. -/
@[simp] theorem orRaise_eq_ok {value : Option α} {e : ε} {a : α} :
    orRaise value e = .ok a ↔ value = some a := by
  cases value <;> simp [orRaise]

/-- A returned value is passed on. -/
@[simp] theorem ok_bind {γ δ : Type u} (c : γ) (f : γ → Except ε δ) :
    ((.ok c : Except ε γ) >>= f) = f c := rfl

/-- A sequence of two fallible blocks returns exactly when both of them do. -/
theorem bind_eq_ok {γ δ : Type u} {x : Except ε γ} {f : γ → Except ε δ} {d : δ} :
    (x >>= f) = .ok d ↔ ∃ c, x = .ok c ∧ f c = .ok d := by
  cases x <;> simp [bind, Except.bind]

/-- A returned value is the value of the block. -/
@[simp] theorem pure_eq_ok {a b : α} : (pure a : Except ε α) = .ok b ↔ a = b := by
  simp [pure, Except.pure]

/-- The state after a transaction: a raise rolls every write back. -/
def commit (result : Except ε σ) (s : σ) : σ :=
  match result with
  | .ok s' => s'
  | .error _ => s

@[simp] theorem commit_ok (s s' : σ) : commit (.ok s' : Except ε σ) s = s' := rfl

@[simp] theorem commit_error (e : ε) (s : σ) : commit (.error e : Except ε σ) s = s := rfl

/-- What holds of the old state and of every returned state holds after the transaction. -/
theorem commit_of {P : σ → Prop} {result : Except ε σ} {s : σ} (hs : P s)
    (hok : ∀ s', result = .ok s' → P s') : P (commit result s) := by
  cases result with
  | ok s' => exact hok s' rfl
  | error e => exact hs

/-- The state that a transaction with a result returns. -/
def stateOf (result : Except ε (α × σ)) : Except ε σ := result.map Prod.snd

@[simp] theorem stateOf_eq_ok {result : Except ε (α × σ)} {s : σ} :
    stateOf result = .ok s ↔ ∃ a, result = .ok (a, s) := by
  cases result <;> simp [stateOf, Except.map, Prod.ext_iff]

@[simp] theorem stateOf_ok (a : α) (s : σ) :
    stateOf (.ok (a, s) : Except ε (α × σ)) = .ok s := rfl

@[simp] theorem stateOf_error (e : ε) :
    stateOf (.error e : Except ε (α × σ)) = .error e := rfl

/-- A block whose failure is renamed returns exactly when the block does. -/
theorem mapError_eq_ok {ε' : Type*} {result : Except ε α} {f : ε → ε'} {a : α} :
    result.mapError f = .ok a ↔ result = .ok a := by
  cases result <;> simp [Except.mapError]

/-- A block whose value passes a test returns it. -/
theorem exists_ok_of_any {result : Except ε α} {p : α → Bool}
    (h : result.toOption.any p = true) : ∃ a, result = .ok a ∧ p a = true := by
  cases result with
  | error failure => exact nomatch h
  | ok a => exact ⟨a, rfl, h⟩

end Transaction

section Loop

variable {ε : Type*} {α β σ : Type u}

/-- A loop over checks passes exactly when every check does. -/
theorem forM_eq_ok {f : α → Except ε PUnit} {l : List α} :
    l.forM f = .ok ⟨⟩ ↔ ∀ a ∈ l, f a = .ok ⟨⟩ := by
  induction l with
  | nil => simp [pure, Except.pure]
  | cons a l ih =>
    show (f a >>= fun _ => l.forM f) = .ok ⟨⟩ ↔ _
    rw [bind_eq_ok, List.forall_mem_cons, ← ih]
    exact ⟨fun ⟨_, ha, hl⟩ => ⟨ha, hl⟩, fun ⟨ha, hl⟩ => ⟨⟨⟩, ha, hl⟩⟩

/-- What each turn of a loop keeps, the loop keeps. -/
theorem foldlM_invariant {f : σ → α → Except ε σ} {I : σ → Prop}
    (hf : ∀ s a s', I s → f s a = .ok s' → I s') {l : List α} {s s' : σ} (hs : I s)
    (h : l.foldlM f s = .ok s') : I s' := by
  induction l generalizing s with
  | nil => exact pure_eq_ok.mp h ▸ hs
  | cons a l ih =>
    rw [List.foldlM_cons] at h
    obtain ⟨mid, hfirst, hrest⟩ := bind_eq_ok.mp h
    exact ih (hf s a mid hs hfirst) hrest

/-- What each turn of a loop that may refuse keeps, the loop keeps. -/
theorem foldlM_keeps {f : σ → α → Option σ} {I : σ → Prop} {l : List α}
    (hf : ∀ s, ∀ a ∈ l, ∀ s', I s → f s a = some s' → I s') {s s' : σ} (hs : I s)
    (h : l.foldlM f s = some s') : I s' := by
  induction l generalizing s with
  | nil => exact Option.some.inj h ▸ hs
  | cons a l ih =>
    rw [List.foldlM_cons] at h
    obtain ⟨mid, hfirst, hrest⟩ := Option.bind_eq_some_iff.mp h
    exact ih (fun s b hb => hf s b (List.mem_cons_of_mem a hb))
      (hf s a List.mem_cons_self mid hs hfirst) hrest

/-- A loop appends what its turns append. -/
theorem foldlM_appends {f : σ → α → Except ε σ} (view : σ → List β) (g : α → List β)
    (hf : ∀ s a s', f s a = .ok s' → view s' = view s ++ g a) {l : List α} {s s' : σ}
    (h : l.foldlM f s = .ok s') : view s' = view s ++ l.flatMap g := by
  induction l generalizing s with
  | nil => simp [pure_eq_ok.mp h]
  | cons a l ih =>
    rw [List.foldlM_cons] at h
    obtain ⟨mid, hfirst, hrest⟩ := bind_eq_ok.mp h
    rw [ih hrest, hf s a mid hfirst, List.append_assoc, List.flatMap_cons]

/-- A listed computation returns what it returns of each item. -/
theorem mapM_forall₂ {f : α → Except ε β} {l : List α} {r : List β} (h : l.mapM f = .ok r) :
    List.Forall₂ (fun a b => f a = .ok b) l r := by
  induction l generalizing r with
  | nil => exact pure_eq_ok.mp h ▸ .nil
  | cons a l ih =>
    simp only [List.mapM_cons, bind_eq_ok, pure_eq_ok] at h
    obtain ⟨b, hb, rest, hrest, rfl⟩ := h
    exact .cons hb (ih hrest)

/-- The items of a computed list are what was computed of the given ones. -/
theorem mem_of_mapM {f : α → Except ε β} {l : List α} {r : List β}
    (h : l.mapM f = .ok r) :
    (∀ a ∈ l, ∃ b ∈ r, f a = .ok b) ∧ ∀ b ∈ r, ∃ a ∈ l, f a = .ok b := by
  induction l generalizing r with
  | nil =>
    obtain rfl : [] = r := by simpa [pure, Except.pure] using h
    simp
  | cons a l ih =>
    simp only [List.mapM_cons, bind_eq_ok, pure_eq_ok] at h
    obtain ⟨b, hb, rest, hrest, rfl⟩ := h
    obtain ⟨hfrom, hto⟩ := ih hrest
    refine ⟨fun x hx => ?_, fun y hy => ?_⟩
    · rcases List.mem_cons.mp hx with rfl | hx
      · exact ⟨b, List.mem_cons_self, hb⟩
      · obtain ⟨y, hy, hxy⟩ := hfrom x hx
        exact ⟨y, List.mem_cons_of_mem b hy, hxy⟩
    · rcases List.mem_cons.mp hy with rfl | hy
      · exact ⟨a, List.mem_cons_self, hb⟩
      · obtain ⟨x, hx, hxy⟩ := hto y hy
        exact ⟨x, List.mem_cons_of_mem a hx, hxy⟩

/-- A listed computation returns when each of its items does. -/
theorem mapM_returns {f : α → Except ε β} {l : List α}
    (h : ∀ a ∈ l, ∃ b, f a = .ok b) : ∃ r, l.mapM f = .ok r := by
  induction l with
  | nil => exact ⟨[], rfl⟩
  | cons a l ih =>
    obtain ⟨b, hb⟩ := h a List.mem_cons_self
    obtain ⟨r, hr⟩ := ih fun x hx => h x (List.mem_cons_of_mem a hx)
    exact ⟨b :: r, by simp [List.mapM_cons, hb, hr, pure, Except.pure]⟩

/-- A loop whose turns are checked, where no turn changes what the checks of the others say: it is
through when all checks hold at its start. -/
theorem foldlM_checked {f : σ → α → Option σ} {g : σ → α → σ} {ok : σ → α → Prop} {I : σ → Prop}
    {l : List α} (hf : ∀ s, I s → ∀ a ∈ l, ∀ s', f s a = some s' ↔ ok s a ∧ g s a = s')
    (hkeep : ∀ s, I s → ∀ a ∈ l, ok s a → I (g s a))
    (hok : ∀ s, I s → ∀ a ∈ l, ok s a → ∀ b ∈ l, (ok (g s a) b ↔ ok s b)) {s : σ} (hs : I s)
    (s' : σ) : l.foldlM f s = some s' ↔ (∀ a ∈ l, ok s a) ∧ l.foldl g s = s' := by
  induction l generalizing s with
  | nil => simp
  | cons a l ih =>
    rw [List.foldlM_cons, List.foldl_cons, Option.bind_eq_bind, Option.bind_eq_some_iff,
      List.forall_mem_cons]
    have hrest : ok s a → (l.foldlM f (g s a) = some s' ↔
        (∀ b ∈ l, ok s b) ∧ l.foldl g (g s a) = s') := by
      intro hfirst
      rw [ih (fun s hs b hb => hf s hs b (List.mem_cons_of_mem a hb))
        (fun s hs b hb => hkeep s hs b (List.mem_cons_of_mem a hb))
        (fun s hs b hb hbok c hc => hok s hs b (List.mem_cons_of_mem a hb) hbok c
          (List.mem_cons_of_mem a hc)) (hkeep s hs a List.mem_cons_self hfirst)]
      refine and_congr_left' (forall₂_congr fun b hb => ?_)
      exact hok s hs a List.mem_cons_self hfirst b (List.mem_cons_of_mem a hb)
    constructor
    · rintro ⟨mid, hmid, hfold⟩
      obtain ⟨hfirst, rfl⟩ := (hf s hs a List.mem_cons_self mid).mp hmid
      obtain ⟨hall, hlast⟩ := (hrest hfirst).mp hfold
      exact ⟨⟨hfirst, hall⟩, hlast⟩
    · rintro ⟨⟨hfirst, hall⟩, hlast⟩
      exact ⟨g s a, (hf s hs a List.mem_cons_self _).mpr ⟨hfirst, rfl⟩,
        (hrest hfirst).mpr ⟨hall, hlast⟩⟩

end Loop

section Raises

variable {ε : Type*} {α β σ : Type u} {P : ε → Prop}

/-- Whatever a computation raises has a property. -/
def Raises (P : ε → Prop) (x : Except ε α) : Prop := ∀ e, x = .error e → P e

namespace Raises

theorem ok (a : α) : Raises P (.ok a) := fun _ h => by cases h

theorem error {e : ε} (h : P e) : Raises P (.error e : Except ε α) := by
  intro e' he
  cases he
  exact h

theorem raiseIf {c : Prop} [Decidable c] {e : ε} (h : P e) : Raises P (raiseIf c e) := by
  unfold Magistrate.raiseIf
  split
  · exact error h
  · exact ok ()

theorem orRaise (value : Option α) {e : ε} (h : P e) : Raises P (orRaise value e) := by
  cases value with
  | none => exact error h
  | some a => exact ok a

theorem bind {x : Except ε α} {f : α → Except ε β} (hx : Raises P x)
    (hf : ∀ a, Raises P (f a)) : Raises P (x >>= f) := by
  cases x with
  | ok a => exact hf a
  | error e => exact error (hx e rfl)

theorem ite {c : Prop} [Decidable c] {x y : Except ε α} (hx : Raises P x) (hy : Raises P y) :
    Raises P (if c then x else y) := by
  split
  · exact hx
  · exact hy

theorem foldlM {f : σ → α → Except ε σ} (hf : ∀ s a, Raises P (f s a)) (l : List α) (s : σ) :
    Raises P (l.foldlM f s) := by
  induction l generalizing s with
  | nil => exact ok s
  | cons a l ih =>
    rw [List.foldlM_cons]
    exact (hf s a).bind ih

theorem mapM {f : α → Except ε β} (hf : ∀ a, Raises P (f a)) (l : List α) :
    Raises P (l.mapM f) := by
  induction l with
  | nil => exact ok []
  | cons a l ih =>
    rw [List.mapM_cons]
    exact (hf a).bind fun b => ih.bind fun _ => ok _

end Raises

end Raises

section Run

variable {σ ι : Type*}

/-- The state a list of steps leads to. -/
def run (step : σ → ι → σ) (s : σ) (steps : List ι) : σ := steps.foldl step s

@[simp] theorem run_nil (step : σ → ι → σ) (s : σ) : run step s [] = s := rfl

@[simp] theorem run_cons (step : σ → ι → σ) (s : σ) (i : ι) (steps : List ι) :
    run step s (i :: steps) = run step (step s i) steps := rfl

/-- A run splits at any point of its list of steps. -/
theorem run_append (step : σ → ι → σ) (s : σ) (first second : List ι) :
    run step s (first ++ second) = run step (run step s first) second :=
  List.foldl_append ..

/-- Every step of the run meets a condition in the state it is taken from. -/
def RunMeets (step : σ → ι → σ) (C : σ → ι → Prop) : σ → List ι → Prop
  | _, [] => True
  | s, i :: steps => C s i ∧ RunMeets step C (step s i) steps

instance RunMeets.decidable (step : σ → ι → σ) (C : σ → ι → Prop)
    [hC : ∀ s i, Decidable (C s i)] : ∀ s steps, Decidable (RunMeets step C s steps)
  | _, [] => .isTrue trivial
  | s, i :: steps =>
    have := RunMeets.decidable step C (step s i) steps
    inferInstanceAs (Decidable (C s i ∧ RunMeets step C (step s i) steps))

/-- Meeting a condition along a run is meeting it along both halves. -/
theorem runMeets_append {step : σ → ι → σ} {C : σ → ι → Prop} {s : σ} {first second : List ι} :
    RunMeets step C s (first ++ second) ↔
      RunMeets step C s first ∧ RunMeets step C (run step s first) second := by
  induction first generalizing s with
  | nil => simp [RunMeets]
  | cons i first ih => simp only [List.cons_append, RunMeets, ih, run_cons, and_assoc]

/-- A condition that always holds is met by every run. -/
theorem runMeets_of_forall {step : σ → ι → σ} {C : σ → ι → Prop} (h : ∀ s i, C s i)
    (s : σ) (steps : List ι) : RunMeets step C s steps := by
  induction steps generalizing s with
  | nil => trivial
  | cons i steps ih => exact ⟨h s i, ih _⟩

/-- A condition on the steps alone is met when every step of the list meets it. -/
theorem runMeets_of_mem {step : σ → ι → σ} {C : ι → Prop} {steps : List ι}
    (h : ∀ i ∈ steps, C i) (s : σ) : RunMeets step (fun _ i => C i) s steps := by
  induction steps generalizing s with
  | nil => trivial
  | cons i steps ih =>
    exact ⟨h i List.mem_cons_self, ih (fun j hj => h j (List.mem_cons_of_mem i hj)) _⟩

/-- Two conditions are met along a run when each of them is. -/
theorem runMeets_and {step : σ → ι → σ} {C D : σ → ι → Prop} {s : σ} {steps : List ι}
    (hC : RunMeets step C s steps) (hD : RunMeets step D s steps) :
    RunMeets step (fun s i => C s i ∧ D s i) s steps := by
  induction steps generalizing s with
  | nil => trivial
  | cons i steps ih => exact ⟨⟨hC.1, hD.1⟩, ih hC.2 hD.2⟩

/-- The invariant rule: what conditioned steps preserve holds after every run that
meets the condition. -/
theorem run_invariant {step : σ → ι → σ} {C : σ → ι → Prop} {I : σ → Prop}
    (hstep : ∀ s i, I s → C s i → I (step s i)) {s : σ} {steps : List ι}
    (hmeets : RunMeets step C s steps) (hs : I s) : I (run step s steps) := by
  induction steps generalizing s with
  | nil => exact hs
  | cons i steps ih => exact ih hmeets.2 (hstep s i hs hmeets.1)

/-- The invariant rule for steps without a condition. -/
theorem run_invariant' {step : σ → ι → σ} {I : σ → Prop} (hstep : ∀ s i, I s → I (step s i))
    {s : σ} (steps : List ι) (hs : I s) : I (run step s steps) :=
  run_invariant (C := fun _ _ => True) (fun s i h _ => hstep s i h)
    (runMeets_of_forall (fun _ _ => trivial) s steps) hs

/-- A condition on the steps that says when a step keeps a property is met along a run exactly when
every state of the run has the property. -/
theorem runMeets_iff_reached {step : σ → ι → σ} {A C : σ → ι → Prop} {I P : σ → Prop}
    (hstep : ∀ s i, I s → A s i → I (step s i))
    (hkeeps : ∀ s i, I s → A s i → P s → (C s i ↔ P (step s i))) {s : σ} {steps : List ι}
    (hmeets : RunMeets step A s steps) (hs : I s) (hP : P s) :
    RunMeets step C s steps ↔ ∀ before after, steps = before ++ after → P (run step s before) := by
  induction steps generalizing s with
  | nil =>
    refine iff_of_true trivial fun before after h => ?_
    rw [(List.append_eq_nil_iff.mp h.symm).1]
    exact hP
  | cons i steps ih =>
    have hkeep := hkeeps s i hs hmeets.1 hP
    constructor
    · rintro ⟨hC, htail⟩ before after h
      cases before with
      | nil => exact hP
      | cons j before =>
        obtain ⟨rfl, hrest⟩ := List.cons.inj h
        exact (ih hmeets.2 (hstep s i hs hmeets.1) (hkeep.mp hC)).mp htail before after hrest
    · intro hall
      have hnext : P (step s i) := hall [i] steps rfl
      refine ⟨hkeep.mpr hnext, (ih hmeets.2 (hstep s i hs hmeets.1) hnext).mpr ?_⟩
      rintro before after rfl
      exact hall (i :: before) after rfl

/-- A condition on the steps that says when a step relates the states before and after it is met
along a run exactly when every two successive states of the run are related. -/
theorem runMeets_iff_successive {step : σ → ι → σ} {C : σ → ι → Prop} {I : σ → Prop}
    {R : σ → σ → Prop} (hstep : ∀ s i, I s → I (step s i))
    (hrelates : ∀ s i, I s → (C s i ↔ R s (step s i))) {s : σ} {steps : List ι} (hs : I s) :
    RunMeets step C s steps ↔ ∀ before i after, steps = before ++ i :: after →
      R (run step s before) (run step s (before ++ [i])) := by
  induction steps generalizing s with
  | nil => exact iff_of_true trivial fun before i after h => by simp at h
  | cons j steps ih =>
    constructor
    · rintro ⟨hC, htail⟩ before i after h
      cases before with
      | nil =>
        obtain ⟨rfl, -⟩ := List.cons.inj h
        exact (hrelates s j hs).mp hC
      | cons k before =>
        obtain ⟨rfl, hrest⟩ := List.cons.inj h
        exact (ih (hstep s j hs)).mp htail before i after hrest
    · intro hall
      refine ⟨(hrelates s j hs).mpr (hall [] j steps rfl), (ih (hstep s j hs)).mpr ?_⟩
      rintro before i after rfl
      exact hall (j :: before) i after rfl

/-- A condition on the steps that says when a step respects a preorder is met along a run exactly
when any two states of the run are related, the earlier one to the later one. -/
theorem runMeets_iff_related {step : σ → ι → σ} {C : σ → ι → Prop} {I : σ → Prop} {R : σ → σ → Prop}
    (hrefl : ∀ s, R s s) (htrans : ∀ s t u, R s t → R t u → R s u)
    (hstep : ∀ s i, I s → I (step s i)) (hrespects : ∀ s i, I s → (C s i ↔ R s (step s i)))
    {s : σ} {steps : List ι} (hs : I s) :
    RunMeets step C s steps ↔ ∀ first second third, steps = first ++ second ++ third →
      R (run step s first) (run step s (first ++ second)) := by
  constructor
  · rintro hmeets first second third rfl
    obtain ⟨hfirst, -⟩ := runMeets_append.mp hmeets
    obtain ⟨-, hsecond⟩ := runMeets_append.mp hfirst
    rw [run_append]
    exact (run_invariant (I := fun t => I t ∧ R (run step s first) t)
      (fun t i ht hC => ⟨hstep t i ht.1, htrans _ _ _ ht.2 ((hrespects t i ht.1).mp hC)⟩) hsecond
      ⟨run_invariant' hstep first hs, hrefl _⟩).2
  · intro hrelated
    induction steps generalizing s with
    | nil => trivial
    | cons i steps ih =>
      refine ⟨(hrespects s i hs).mpr (hrelated [] [i] steps rfl), ih (hstep s i hs) ?_⟩
      rintro first second third rfl
      exact hrelated (i :: first) second third rfl

/-- A preorder that every step respects relates the ends of every run. -/
theorem run_monotone {step : σ → ι → σ} {R : σ → σ → Prop} (hrefl : ∀ s, R s s)
    (htrans : ∀ s t u, R s t → R t u → R s u) (hstep : ∀ s i, R s (step s i))
    (s : σ) (steps : List ι) : R s (run step s steps) := by
  induction steps generalizing s with
  | nil => exact hrefl s
  | cons i steps ih => exact htrans _ _ _ (hstep s i) (ih _)

end Run

end Magistrate
