import Mathlib.Tactic.Common

/-!
# XXChain — the FRAME vocabulary the pallets share

Origins, dispatch errors and the `ensure!` of the dispatchables. A dispatchable is a
function into `Except`: an error carries no state, because FRAME runs each dispatchable in
a storage layer and discards every write and event of one that fails.
-/

namespace XXChain

/-- The origin a call is dispatched with; `other` stands for the origins of the pallets
outside this development, such as the share of a collective that voted for a motion. -/
inductive Origin (A : Type) where
  | root
  | signed (who : A)
  | none
  | other (tag : Nat)
  deriving DecidableEq, Repr

/-- Why a dispatchable failed: a refused origin, an error of the pallet itself, or an error
of the code it called. -/
inductive DispatchError (E : Type) where
  | badOrigin
  | module (error : E)
  | foreign (code : Nat)
  deriving DecidableEq, Repr

/-- An error of one pallet as the pallet that called it returns it. -/
def DispatchError.abroad {E E' : Type} : DispatchError E → DispatchError E'
  | .badOrigin => .badOrigin
  | .module _ => .foreign 0
  | .foreign code => .foreign code

variable {A E α β ε : Type}

def ensure (condition : Bool) (error : ε) : Except ε Unit :=
  if condition then .ok () else .error error

def ensureSigned : Origin A → Except (DispatchError E) A
  | .signed who => .ok who
  | _ => .error .badOrigin

def ensureRoot : Origin A → Except (DispatchError E) Unit
  | .root => .ok ()
  | _ => .error .badOrigin

def ensureNone : Origin A → Except (DispatchError E) Unit
  | .none => .ok ()
  | _ => .error .badOrigin

/-- `ok_or`: the value of an option, or the error when there is none. -/
def okOr (value : Option α) (error : ε) : Except ε α :=
  match value with
  | some a => .ok a
  | none => .error error

@[simp]
theorem ensure_eq_ok {condition : Bool} {error : ε} {u : Unit} :
    ensure condition error = .ok u ↔ condition = true := by
  cases condition <;> simp [ensure]

@[simp]
theorem ensureSigned_eq_ok {o : Origin A} {who : A} :
    (ensureSigned o : Except (DispatchError E) A) = .ok who ↔ o = .signed who := by
  cases o <;> simp [ensureSigned]

@[simp]
theorem ensureRoot_eq_ok {o : Origin A} {u : Unit} :
    (ensureRoot o : Except (DispatchError E) Unit) = .ok u ↔ o = .root := by
  cases o <;> simp [ensureRoot]

@[simp]
theorem ensureNone_eq_ok {o : Origin A} {u : Unit} :
    (ensureNone o : Except (DispatchError E) Unit) = .ok u ↔ o = .none := by
  cases o <;> simp [ensureNone]

@[simp]
theorem okOr_eq_ok {value : Option α} {error : ε} {a : α} :
    okOr value error = .ok a ↔ value = some a := by
  cases value <;> simp [okOr]

/-- A sequence of two fallible steps succeeds when both do. -/
theorem bind_eq_ok {x : Except ε α} {f : α → Except ε β} {b : β} :
    (x >>= f) = .ok b ↔ ∃ a, x = .ok a ∧ f a = .ok b := by
  cases x with
  | error e => simp [bind, Except.bind]
  | ok a => simp [bind, Except.bind]

/-- A sequence does not fail with an error that neither step fails with. -/
theorem bind_ne_error {x : Except ε α} {f : α → Except ε β} {error : ε} (hx : x ≠ .error error)
    (hf : ∀ a, f a ≠ .error error) : (x >>= f) ≠ .error error := by
  cases x with
  | error e =>
    intro h
    cases h
    exact hx rfl
  | ok a => exact hf a

/-! ## Two fallible runs side by side -/

/-- Both fail with the same error, or both succeed and `R` relates what they return. -/
def Alike (R : α → β → Prop) : Except ε α → Except ε β → Prop
  | .ok a, .ok b => R a b
  | .error e, .error e' => e = e'
  | _, _ => False

theorem Alike.refl (x : Except ε α) : Alike Eq x x := by
  cases x with
  | error e => rfl
  | ok a => rfl

/-- Runs that are alike stay so when what they continue with is alike. -/
theorem Alike.bind {α' β' : Type} {R : α → β → Prop} {S : α' → β' → Prop} {x : Except ε α}
    {y : Except ε β} {f : α → Except ε α'} {g : β → Except ε β'} (h : Alike R x y)
    (hfg : ∀ a b, R a b → Alike S (f a) (g b)) : Alike S (x >>= f) (y >>= g) := by
  cases x with
  | error e =>
    cases y with
    | error e' => exact h
    | ok b => exact h.elim
  | ok a =>
    cases y with
    | error e' => exact h.elim
    | ok b => exact hfg a b h

/-- What is known of both results may be added to the relation between them. -/
theorem Alike.imp {R S : α → β → Prop} {x : Except ε α} {y : Except ε β} (h : Alike R x y)
    (hRS : ∀ a b, x = .ok a → y = .ok b → R a b → S a b) : Alike S x y := by
  cases x with
  | error e =>
    cases y with
    | error e' => exact h
    | ok b => exact h.elim
  | ok a =>
    cases y with
    | error e' => exact h.elim
    | ok b => exact hRS a b rfl rfl h

/-- The run on the right succeeds when the one on the left does. -/
theorem Alike.ok {R : α → β → Prop} {a : α} {y : Except ε β} (h : Alike R (.ok a) y) :
    ∃ b, y = .ok b ∧ R a b := by
  cases y with
  | error e => exact h.elim
  | ok b => exact ⟨b, rfl, h⟩

end XXChain
