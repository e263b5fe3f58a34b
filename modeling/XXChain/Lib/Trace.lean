import Mathlib.Algebra.BigOperators.Group.List.Basic
import Mathlib.Algebra.Ring.Nat

/-!
# XXChain — runs with silent and labelled steps

A system some of whose steps are silent and the others have a label. The trace of a run lists
its labels, each with the state before its step, so that what happened can be charged to the
steps that did it:

* **`Trace.flow_le`** — if a labelled step adds to an account at most what it adds to another and
  its cost, and a silent step has no cost, a run adds at most what its trace costs;
* **`Trace.view_eq`** — what only the labelled steps change is folded over the trace;
* **`Trace.keeps`** — what silent steps and the labels of the trace keep, the run keeps;
* **`Trace.costs`** — the same with a cost, which adds up over the trace;
* **`Trace.within`** — what the steps keep as long as the costs stay below a bound, a run keeps
  whose trace does;
* **`Trace.loses`** — what a run loses, and its silent steps do not, it loses at a step of its
  trace;
* **`Trace.Causes`** — a run in which something comes about only by what it goes through.
-/

namespace XXChain

variable {σ ℓ : Type*}

/-- A run from one state to another, with its trace. -/
inductive Trace (silent : σ → σ → Prop) (labelled : σ → ℓ → σ → Prop) :
    List (σ × ℓ) → σ → σ → Prop where
  | refl (s : σ) : Trace silent labelled [] s s
  | silent {trace : List (σ × ℓ)} {s s₁ s' : σ} (hrun : Trace silent labelled trace s s₁)
      (hstep : silent s₁ s') : Trace silent labelled trace s s'
  | labelled {trace : List (σ × ℓ)} {s s₁ s' : σ} {l : ℓ}
      (hrun : Trace silent labelled trace s s₁) (hstep : labelled s₁ l s') :
      Trace silent labelled (trace ++ [(s₁, l)]) s s'

namespace Trace

variable {silent : σ → σ → Prop} {labelled : σ → ℓ → σ → Prop} {trace trace' : List (σ × ℓ)}
  {s s₁ s' : σ}

theorem append (h : Trace silent labelled trace s s₁) (h' : Trace silent labelled trace' s₁ s') :
    Trace silent labelled (trace ++ trace') s s' := by
  induction h' with
  | refl => simpa using h
  | silent _ hstep ih => exact .silent (ih h) hstep
  | labelled _ hstep ih =>
    rw [← List.append_assoc]
    exact .labelled (ih h) hstep

theorem single {l : ℓ} (h : labelled s l s') : Trace silent labelled [(s, l)] s s' :=
  .labelled (.refl s) h

theorem ofSilent (h : silent s s') : Trace silent labelled [] s s' :=
  .silent (.refl s) h

/-- The same run with other labels. -/
theorem mapLabels {ℓ' : Type*} {labelled' : σ → ℓ' → σ → Prop} (f : ℓ → ℓ')
    (hlabelled : ∀ s l s', labelled s l s' → labelled' s (f l) s')
    (h : Trace silent labelled trace s s') :
    Trace silent labelled' (trace.map fun e => (e.1, f e.2)) s s' := by
  induction h with
  | refl s => exact .refl s
  | silent _ hstep ih => exact .silent ih hstep
  | labelled _ hstep ih =>
    rw [List.map_append]
    exact .labelled ih (hlabelled _ _ _ hstep)

/-- A relation between states that goes from step to step holds of a run if its silent steps
keep it, and the labelled ones with `P`, which are all. -/
theorem keeps {R : σ → σ → Prop} {P : σ → ℓ → Prop} (hrefl : ∀ s, R s s)
    (htrans : ∀ s s₁ s', R s s₁ → R s₁ s' → R s s') (hsilent : ∀ s s', silent s s' → R s s')
    (hlabelled : ∀ s l s', P s l → labelled s l s' → R s s')
    (h : Trace silent labelled trace s s') (hP : ∀ e ∈ trace, P e.1 e.2) : R s s' := by
  induction h with
  | refl s => exact hrefl s
  | silent _ hstep ih => exact htrans _ _ _ (ih hP) (hsilent _ _ hstep)
  | labelled _ hstep ih =>
    have hlast := hP _ (List.mem_append_right _ (List.mem_singleton_self _))
    have hbefore := ih fun e he => hP e (List.mem_append_left _ he)
    exact htrans _ _ _ hbefore (hlabelled _ _ _ hlast hstep)

/-- A relation with a cost that adds up: if a silent step is free and a labelled one with `P` has
its cost, a run costs what its trace does. -/
theorem costs {R : Nat → σ → σ → Prop} {P : σ → ℓ → Prop} (cost : σ → ℓ → Nat)
    (hrefl : ∀ s, R 0 s s)
    (htrans : ∀ m n s s₁ s', R m s s₁ → R n s₁ s' → R (m + n) s s')
    (hsilent : ∀ s s', silent s s' → R 0 s s')
    (hlabelled : ∀ s l s', P s l → labelled s l s' → R (cost s l) s s')
    (h : Trace silent labelled trace s s') (hP : ∀ e ∈ trace, P e.1 e.2) :
    R (trace.map fun e => cost e.1 e.2).sum s s' := by
  induction h with
  | refl s => exact hrefl s
  | silent _ hstep ih => exact htrans _ 0 _ _ _ (ih hP) (hsilent _ _ hstep)
  | labelled _ hstep ih =>
    have hlast := hP _ (List.mem_append_right _ (List.mem_singleton_self _))
    have hbefore := ih fun e he => hP e (List.mem_append_left _ he)
    rw [List.map_append, List.sum_append, List.map_singleton, List.sum_singleton]
    exact htrans _ _ _ _ _ hbefore (hlabelled _ _ _ hlast hstep)

/-- A view of the state that the silent steps leave alone is folded over the trace. -/
theorem view_eq {β : Type*} (f : σ → β) (g : β → σ × ℓ → β)
    (hsilent : ∀ s s', silent s s' → f s' = f s)
    (hlabelled : ∀ s l s', labelled s l s' → f s' = g (f s) (s, l))
    (h : Trace silent labelled trace s s') : f s' = trace.foldl g (f s) := by
  induction h with
  | refl s => rfl
  | silent _ hstep ih => rw [hsilent _ _ hstep, ih]
  | labelled _ hstep ih => rw [List.foldl_append, ← ih, hlabelled _ _ _ hstep]; rfl

/-- Two accounts and an invariant: if each step pays for what it adds to the first beyond what it
adds to the second, so does the run. -/
theorem flow_le (I : σ → Prop) (φ ψ : σ → Nat) (cost : σ → ℓ → Nat)
    (hsilent : ∀ s s', I s → silent s s' → I s' ∧ φ s' + ψ s ≤ φ s + ψ s')
    (hlabelled : ∀ s l s', I s → labelled s l s' → I s' ∧ φ s' + ψ s ≤ φ s + ψ s' + cost s l)
    (hs : I s) (h : Trace silent labelled trace s s') :
    I s' ∧ φ s' + ψ s ≤ φ s + ψ s' + (trace.map fun e => cost e.1 e.2).sum := by
  induction h with
  | refl s => exact ⟨hs, Nat.le_add_right _ _⟩
  | silent _ hstep ih =>
    obtain ⟨hinv, hle⟩ := ih hs
    obtain ⟨hinv', hle'⟩ := hsilent _ _ hinv hstep
    exact ⟨hinv', by omega⟩
  | @labelled trace s s₁ s' l _ hstep ih =>
    obtain ⟨hinv, hle⟩ := ih hs
    obtain ⟨hinv', hle'⟩ := hlabelled _ _ _ hinv hstep
    refine ⟨hinv', ?_⟩
    rw [List.map_append, List.sum_append, List.map_singleton, List.sum_singleton]
    show φ s' + ψ s ≤ φ s + ψ s' + ((trace.map fun e => cost e.1 e.2).sum + cost s₁ l)
    omega

/-- An invariant that a labelled step may only break where an account and the cost of the step reach
a bound. -/
theorem within {I : σ → Prop} (φ : σ → Nat) (cost : σ → ℓ → Nat) {bound : Nat}
    (hsilent : ∀ s s', I s → silent s s' → I s' ∧ φ s' ≤ φ s)
    (hlabelled : ∀ s l s', I s → φ s + cost s l < bound → labelled s l s' →
      I s' ∧ φ s' ≤ φ s + cost s l)
    (hs : I s) (h : Trace silent labelled trace s s')
    (hbound : φ s + (trace.map fun e => cost e.1 e.2).sum < bound) :
    I s' ∧ φ s' ≤ φ s + (trace.map fun e => cost e.1 e.2).sum := by
  induction h with
  | refl s => exact ⟨hs, Nat.le_add_right _ _⟩
  | silent _ hstep ih =>
    obtain ⟨hinv, hle⟩ := ih hs hbound
    obtain ⟨hinv', hle'⟩ := hsilent _ _ hinv hstep
    exact ⟨hinv', hle'.trans hle⟩
  | @labelled trace s s₁ s' l _ hstep ih =>
    have hsum : ((trace ++ [(s₁, l)]).map fun e => cost e.1 e.2).sum =
        (trace.map fun e => cost e.1 e.2).sum + cost s₁ l := by
      rw [List.map_append, List.sum_append, List.map_singleton, List.sum_singleton]
    rw [hsum] at hbound ⊢
    -- the costs before the step are below the bound as well
    obtain ⟨hinv, hle⟩ := ih hs (by omega)
    obtain ⟨hinv', hle'⟩ := hlabelled _ _ _ hinv (by omega) hstep
    exact ⟨hinv', by omega⟩

/-- With one account: a run adds no more to it than its trace pays for. -/
theorem potential_le (φ : σ → Nat) (cost : σ → ℓ → Nat)
    (hsilent : ∀ s s', silent s s' → φ s' ≤ φ s)
    (hlabelled : ∀ s l s', labelled s l s' → φ s' ≤ φ s + cost s l)
    (h : Trace silent labelled trace s s') :
    φ s' ≤ φ s + (trace.map fun e => cost e.1 e.2).sum := by
  have hflow := flow_le (fun _ => True) φ (fun _ => 0) cost
    (fun s s' _ hstep => ⟨trivial, hsilent s s' hstep⟩)
    (fun s l s' _ hstep => ⟨trivial, hlabelled s l s' hstep⟩) trivial h
  exact hflow.2

/-! ## What a run goes through -/

/-- A run with a part that has `P`. -/
def Through (silent : σ → σ → Prop) (labelled : σ → ℓ → σ → Prop)
    (P : List (σ × ℓ) → σ → σ → Prop) (trace : List (σ × ℓ)) (s s' : σ) : Prop :=
  ∃ before part after s₁ s₂, trace = before ++ part ++ after ∧
    Trace silent labelled before s s₁ ∧ P part s₁ s₂ ∧ Trace silent labelled after s₂ s'

variable {P : List (σ × ℓ) → σ → σ → Prop} {Q : σ → Prop}

theorem Through.append_left (h : Trace silent labelled trace s s₁)
    (h' : Through silent labelled P trace' s₁ s') :
    Through silent labelled P (trace ++ trace') s s' := by
  obtain ⟨before, part, after, s₂, s₃, htrace, hbefore, hpart, hafter⟩ := h'
  refine ⟨trace ++ before, part, after, s₂, s₃, ?_, h.append hbefore, hpart, hafter⟩
  rw [htrace, List.append_assoc, List.append_assoc, List.append_assoc]

theorem Through.append_right (h : Through silent labelled P trace s s₁)
    (h' : Trace silent labelled trace' s₁ s') :
    Through silent labelled P (trace ++ trace') s s' := by
  obtain ⟨before, part, after, s₂, s₃, htrace, hbefore, hpart, hafter⟩ := h
  refine ⟨before, part, after ++ trace', s₂, s₃, ?_, hbefore, hpart, hafter.append h'⟩
  rw [htrace, List.append_assoc]

/-- A labelled step after which `Q` does not hold any more. -/
def Loses (labelled : σ → ℓ → σ → Prop) (Q : σ → Prop) (part : List (σ × ℓ)) (s s' : σ) : Prop :=
  ∃ l, part = [(s, l)] ∧ labelled s l s' ∧ Q s ∧ ¬Q s'

/-- What a run loses it loses at a labelled step, if the silent steps keep it. -/
theorem loses (hsilent : ∀ s s', silent s s' → Q s → Q s')
    (h : Trace silent labelled trace s s') (hs : Q s) (hs' : ¬Q s') :
    Through silent labelled (Loses labelled Q) trace s s' := by
  induction h with
  | refl s => exact absurd hs hs'
  | @silent trace s s₁ s' _ hstep ih =>
    have hlost := ih hs fun hs₁ => hs' (hsilent _ _ hstep hs₁)
    have hrun := hlost.append_right (.ofSilent hstep)
    rwa [List.append_nil] at hrun
  | @labelled trace s s₁ s' l hrun hstep ih =>
    by_cases hs₁ : Q s₁
    · -- the last step is the one that loses it
      exact ⟨trace, [(s₁, l)], [], s₁, s', by rw [List.append_nil], hrun,
        ⟨l, rfl, hstep, hs₁, hs'⟩, .refl s'⟩
    · exact (ih hs hs₁).append_right (.single hstep)

/-- A run in which `Q` comes about only if it goes through `P`. -/
structure Causes (silent : σ → σ → Prop) (labelled : σ → ℓ → σ → Prop)
    (P : List (σ × ℓ) → σ → σ → Prop) (Q : σ → Prop) (trace : List (σ × ℓ)) (s s' : σ) :
    Prop where
  run : Trace silent labelled trace s s'
  cause : Q s' → Q s ∨ Through silent labelled P trace s s'

namespace Causes

theorem refl (s : σ) : Causes silent labelled P Q [] s s :=
  ⟨.refl s, Or.inl⟩

theorem ofSilent (h : silent s s') (hQ : Q s' → Q s) : Causes silent labelled P Q [] s s' :=
  ⟨.ofSilent h, fun hs' => Or.inl (hQ hs')⟩

theorem single {l : ℓ} (h : labelled s l s') (hQ : Q s' → Q s) :
    Causes silent labelled P Q [(s, l)] s s' :=
  ⟨.single h, fun hs' => Or.inl (hQ hs')⟩

theorem append (h : Causes silent labelled P Q trace s s₁)
    (h' : Causes silent labelled P Q trace' s₁ s') :
    Causes silent labelled P Q (trace ++ trace') s s' where
  run := h.run.append h'.run
  cause := by
    intro hs'
    rcases h'.cause hs' with hs₁ | hlater
    · exact (h.cause hs₁).imp_right fun hearlier => hearlier.append_right h'.run
    · exact Or.inr (hlater.append_left h.run)

theorem mapLabels {ℓ' : Type*} {labelled' : σ → ℓ' → σ → Prop}
    {P' : List (σ × ℓ') → σ → σ → Prop} (f : ℓ → ℓ')
    (hlabelled : ∀ s l s', labelled s l s' → labelled' s (f l) s')
    (hP : ∀ part s s', P part s s' → P' (part.map fun e => (e.1, f e.2)) s s')
    (h : Causes silent labelled P Q trace s s') :
    Causes silent labelled' P' Q (trace.map fun e => (e.1, f e.2)) s s' where
  run := h.run.mapLabels f hlabelled
  cause := by
    intro hs'
    refine (h.cause hs').imp_right ?_
    rintro ⟨before, part, after, s₁, s₂, htrace, hbefore, hpart, hafter⟩
    refine ⟨_, _, _, s₁, s₂, ?_, hbefore.mapLabels f hlabelled, hP _ _ _ hpart,
      hafter.mapLabels f hlabelled⟩
    rw [htrace, List.map_append, List.map_append]

end Causes

end Trace

end XXChain
