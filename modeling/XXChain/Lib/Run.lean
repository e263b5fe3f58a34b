import Mathlib.Logic.Relation

/-!
# XXChain — runs, reachable states and their invariants

A system is a predicate on initial states and a step relation; a run is a finite sequence
of steps (`Relation.ReflTransGen`). The rules here turn a fact about one step into a fact
about whole runs:

* **`run_invariant`** — what every step keeps, a run keeps;
* **`foldlM_invariant`** — the same for a loop that folds a fallible operation over a list;
* **`foldlM_eq_ok_iff`** — when such a loop goes through, and what it leaves;
* **`along_of_invariant`** — the same before each step of a run of given inputs;
* **`always_iff_along`** — for a run of given inputs, a property of every state it visits is
  equivalent to a condition on its steps when one step keeps the property exactly under that
  condition.
-/

namespace XXChain

open Relation

variable {σ : Type*} {init : σ → Prop} {step : σ → σ → Prop}

/-- A state that some run from an initial state ends in. -/
def Reachable (init : σ → Prop) (step : σ → σ → Prop) (s : σ) : Prop :=
  ∃ s₀, init s₀ ∧ ReflTransGen step s₀ s

theorem Reachable.of_init {s : σ} (h : init s) : Reachable init step s :=
  ⟨s, h, .refl⟩

/-- A run continues a reachable state to a reachable state. -/
theorem Reachable.trans {s s' : σ} (h : Reachable init step s) (hrun : ReflTransGen step s s') :
    Reachable init step s' := by
  obtain ⟨s₀, hs₀, hs⟩ := h
  exact ⟨s₀, hs₀, hs.trans hrun⟩

/-- An invariant of the step survives a run. -/
theorem run_invariant {Inv : σ → Prop} (hstep : ∀ s s', Inv s → step s s' → Inv s')
    {s s' : σ} (hs : Inv s) (hrun : ReflTransGen step s s') : Inv s' := by
  induction hrun with
  | refl => exact hs
  | tail _ hlast ih => exact hstep _ _ ih hlast

/-- A fallible loop over a list keeps what each of its iterations keeps. -/
theorem foldlM_invariant {ε α : Type*} {I : σ → Prop} {f : σ → α → Except ε σ}
    (hf : ∀ s a s', I s → f s a = .ok s' → I s') {l : List α} {s s' : σ}
    (hs : I s) (h : l.foldlM f s = .ok s') : I s' := by
  induction l generalizing s with
  | nil =>
    cases h
    exact hs
  | cons a l ih =>
    rw [List.foldlM_cons] at h
    cases hfa : f s a with
    | error e =>
      rw [hfa] at h
      cases h
    | ok s₁ =>
      rw [hfa] at h
      exact ih (hf s a s₁ hs hfa) h

/-! ## Runs of given inputs -/

section Inputs

variable {α : Type*} (next : σ → α → σ)

/-- Every state that the run of the inputs visits has `P`, the first one included. -/
def Always (P : σ → Prop) : σ → List α → Prop
  | s, [] => P s
  | s, a :: l => P s ∧ Always P (next s a) l

/-- Every step of the run of the inputs, from the state it starts in, has `Q`. -/
def Along (Q : σ → α → Prop) : σ → List α → Prop
  | _, [] => True
  | s, a :: l => Q s a ∧ Along Q (next s a) l

variable {next}

theorem Always.head {P : σ → Prop} {s : σ} {l : List α} (h : Always next P s l) : P s := by
  cases l with
  | nil => exact h
  | cons a l => exact h.1

theorem Always.imp {P P' : σ → Prop} (h : ∀ s, P s → P' s) {s : σ} {l : List α}
    (hP : Always next P s l) : Always next P' s l := by
  induction l generalizing s with
  | nil => exact h s hP
  | cons a l ih => exact ⟨h s hP.1, ih hP.2⟩

theorem Always.and {P P' : σ → Prop} {s : σ} {l : List α} (h : Always next P s l)
    (h' : Always next P' s l) : Always next (fun s => P s ∧ P' s) s l := by
  induction l generalizing s with
  | nil => exact ⟨h, h'⟩
  | cons a l ih => exact ⟨⟨h.1, h'.1⟩, ih h.2 h'.2⟩

/-- What the steps of a run keep holds in every state of it. -/
theorem always_of_invariant {P : σ → Prop} {G : σ → α → Prop}
    (hstep : ∀ s a, P s → G s a → P (next s a)) {s : σ} {l : List α} (hs : P s)
    (hG : Along next G s l) : Always next P s l := by
  induction l generalizing s with
  | nil => exact hs
  | cons a l ih => exact ⟨hs, ih (hstep s a hs hG.1) hG.2⟩

/-- What every step keeps holds before each step of a run. -/
theorem along_of_invariant {P : σ → Prop} (hstep : ∀ s a, P s → P (next s a)) {s : σ}
    {l : List α} (hs : P s) : Along next (fun s _ => P s) s l := by
  induction l generalizing s with
  | nil => trivial
  | cons a l ih => exact ⟨hs, ih (hstep s a hs)⟩

theorem Along.append {Q : σ → α → Prop} {s : σ} {l l' : List α} :
    Along next Q s (l ++ l') ↔ Along next Q s l ∧ Along next Q (l.foldl next s) l' := by
  induction l generalizing s with
  | nil => exact (true_and _).symm.to_iff
  | cons a l ih =>
    show Q s a ∧ Along next Q (next s a) (l ++ l') ↔ _
    rw [ih]
    exact and_assoc.symm

theorem Along.imp {Q R : σ → α → Prop} (h : ∀ s a, Q s a → R s a) {s : σ} {l : List α}
    (hQ : Along next Q s l) : Along next R s l := by
  induction l generalizing s with
  | nil => trivial
  | cons a l ih => exact ⟨h s a hQ.1, ih hQ.2⟩

/-- If, in a run whose steps have `G`, a step from a state with `P` leads to `P` and has `R`
exactly when it has `Q`, then all states have `P` and all steps `R` exactly when all steps
have `Q`. -/
theorem always_iff_along {P : σ → Prop} {G Q R : σ → α → Prop}
    (hstep : ∀ s a, P s → G s a → (P (next s a) ∧ R s a ↔ Q s a)) {s : σ} {l : List α}
    (hs : P s) (hG : Along next G s l) :
    Always next P s l ∧ Along next R s l ↔ Along next Q s l := by
  induction l generalizing s with
  | nil => exact ⟨fun _ => trivial, fun _ => ⟨hs, trivial⟩⟩
  | cons a l ih =>
    constructor
    · rintro ⟨⟨_, hrest⟩, hR, hRrest⟩
      have hnext := hrest.head
      exact ⟨(hstep s a hs hG.1).mp ⟨hnext, hR⟩, (ih hnext hG.2).mp ⟨hrest, hRrest⟩⟩
    · rintro ⟨hQ, hQrest⟩
      obtain ⟨hnext, hR⟩ := (hstep s a hs hG.1).mpr hQ
      obtain ⟨hrest, hRrest⟩ := (ih hnext hG.2).mpr hQrest
      exact ⟨⟨hs, hrest⟩, hR, hRrest⟩

/-- A fallible loop goes through when each of its iterations does. -/
theorem foldlM_eq_ok_iff {ε : Type*} {f : σ → α → Except ε σ} {Q : σ → α → Prop}
    (hf : ∀ s a s', f s a = .ok s' ↔ Q s a ∧ s' = next s a) {s s' : σ} {l : List α} :
    l.foldlM f s = .ok s' ↔ Along next Q s l ∧ s' = l.foldl next s := by
  induction l generalizing s with
  | nil =>
    constructor
    · intro h
      cases h
      exact ⟨trivial, rfl⟩
    · rintro ⟨_, rfl⟩
      rfl
  | cons a l ih =>
    rw [List.foldlM_cons]
    cases hfa : f s a with
    | error e =>
      have hfails : ¬ Q s a := fun hQ => by
        have hok := (hf s a (next s a)).mpr ⟨hQ, rfl⟩
        rw [hfa] at hok
        cases hok
      exact iff_of_false nofun fun h => hfails h.1.1
    | ok s₁ =>
      obtain ⟨hQ, rfl⟩ := (hf s a s₁).mp hfa
      have hrest : l.foldlM f (next s a) = .ok s' ↔ _ := ih
      refine hrest.trans ⟨fun h => ⟨⟨hQ, h.1⟩, h.2⟩, fun h => ⟨h.1.2, h.2⟩⟩

end Inputs

end XXChain
