import Mathlib.Data.List.Basic

/-!
# Workers on a shared state

Workers take turns on a shared state. A turn reads and writes the shared state
in one transaction and decides where its worker goes on, or that it is done; so
every interleaving of the workers is one list of turns.
-/

namespace Magistrate

/-- A shared state and the workers that are under way. -/
structure Pool (σ ω : Type*) where
  shared : σ
  workers : List ω
  deriving DecidableEq

namespace Pool

variable {σ ω : Type*}

/-- One worker takes its turn. -/
def turn (p : Pool σ ω) (i : ℕ) (f : ω → σ → σ × Option ω) : Pool σ ω :=
  match p.workers[i]? with
  | none => p
  | some w =>
    { shared := (f w p.shared).1
      workers := p.workers.take i ++ (f w p.shared).2.toList ++ p.workers.drop (i + 1) }

/-- A worker is started. -/
def spawn (p : Pool σ ω) (w : ω) : Pool σ ω := { p with workers := p.workers ++ [w] }

/-- The shared state is written by no worker. -/
def write (p : Pool σ ω) (s : σ) : Pool σ ω := { p with shared := s }

/-- A turn of a worker puts where it goes on in its place. -/
theorem turn_split {p : Pool σ ω} {i : ℕ} {w : ω} (h : p.workers[i]? = some w)
    (f : ω → σ → σ × Option ω) : ∃ before after, p.workers = before ++ w :: after ∧
      p.turn i f = ⟨(f w p.shared).1, before ++ (f w p.shared).2.toList ++ after⟩ := by
  refine ⟨p.workers.take i, p.workers.drop (i + 1), ?_, by simp [turn, h]⟩
  obtain ⟨hi, rfl⟩ := List.getElem?_eq_some_iff.mp h
  rw [List.getElem_cons_drop, List.take_append_drop]

/-- A turn replaces one worker by where it goes on, or changes nothing. -/
theorem turn_cases (p : Pool σ ω) (i : ℕ) (f : ω → σ → σ × Option ω) :
    p.turn i f = p ∨ ∃ before w after, p.workers = before ++ w :: after ∧
      p.workers[i]? = some w ∧
      p.turn i f = ⟨(f w p.shared).1, before ++ (f w p.shared).2.toList ++ after⟩ := by
  cases hw : p.workers[i]? with
  | none => exact .inl (by simp [turn, hw])
  | some w =>
    obtain ⟨before, after, hworkers, hturn⟩ := turn_split hw f
    exact .inr ⟨before, w, after, hworkers, rfl, hturn⟩

/-- A condition on the worker whose turn it is can be decided. -/
instance decidableTurn (p : Pool σ ω) (i : ℕ) (P : ω → Prop) [∀ w, Decidable (P w)] :
    Decidable (∀ w, p.workers[i]? = some w → P w) :=
  match p.workers[i]? with
  | none => .isTrue fun _ h => nomatch h
  | some w => decidable_of_iff (P w) ⟨fun hP _ h => Option.some.inj h ▸ hP, fun hP => hP w rfl⟩

variable {p : Pool σ ω} {i : ℕ} {f : ω → σ → σ × Option ω} {w w' : ω}

/-- A turn of nobody changes nothing. -/
theorem turn_none (h : p.workers[i]? = none) : p.turn i f = p := by simp [turn, h]

/-- The state after a turn. -/
theorem shared_turn (h : p.workers[i]? = some w) : (p.turn i f).shared = (f w p.shared).1 := by
  simp [turn, h]

/-- A worker goes on after its turn. -/
theorem mem_turn_next (h : p.workers[i]? = some w) (hnext : (f w p.shared).2 = some w') :
    w' ∈ (p.turn i f).workers := by
  simp [turn, h, hnext]

/-- A worker that goes on after its turn keeps its place. -/
theorem getElem?_turn (h : p.workers[i]? = some w) (hnext : (f w p.shared).2 = some w') :
    (p.turn i f).workers[i]? = some w' := by
  have hi : (p.workers.take i).length = i :=
    List.length_take_of_le (Nat.le_of_lt (List.getElem?_eq_some_iff.mp h).1)
  simp [turn, h, hnext, hi]

/-- The workers that take no turn stay. -/
theorem mem_turn_of_mem (h : w ∈ p.workers) :
    w ∈ (p.turn i f).workers ∨ p.workers[i]? = some w := by
  rcases p.turn_cases i f with hturn | ⟨before, v, after, hworkers, hv, hturn⟩
  · exact .inl (by rwa [hturn])
  · rw [hworkers, List.mem_append, List.mem_cons] at h
    rcases h with h | rfl | h
    · exact .inl (by simp [hturn, h])
    · exact .inr hv
    · exact .inl (by simp [hturn, h])

/-- After a turn every worker was there before or goes on. -/
theorem mem_turn (h : w' ∈ (p.turn i f).workers) :
    w' ∈ p.workers ∨ ∃ w, p.workers[i]? = some w ∧ (f w p.shared).2 = some w' := by
  rcases p.turn_cases i f with hturn | ⟨before, v, after, hworkers, hv, hturn⟩
  · exact .inl (hturn ▸ h)
  · rw [hturn] at h
    simp only [List.mem_append, Option.mem_toList] at h
    rcases h with (h | h) | h
    · exact .inl (by simp [hworkers, h])
    · exact .inr ⟨v, hv, h⟩
    · exact .inl (by simp [hworkers, h])

end Pool

end Magistrate
