import Mathlib.Algebra.BigOperators.Group.Finset.Basic
import Mathlib.Algebra.Order.BigOperators.Group.Finset
import Mathlib.Algebra.Order.BigOperators.Group.Multiset
import Mathlib.Data.Finmap
import Mathlib.Algebra.BigOperators.Group.Multiset.Basic
import Mathlib.Algebra.Order.Group.Nat
import Mathlib.Algebra.Ring.Nat

/-!
# XXChain — storage maps and what they add up to

A storage map of the runtime is a finite map: `insert` overwrites, `remove` and `take`
erase, and the order of its entries carries no meaning. Mathlib's `Finmap` is that object
(equality is equality of lookups), so this module only adds what an accounting argument
needs over it:

* **`sumBy`** — the total of a measure over the values, with its change under `insert` and
  `erase` given by the entry that was there before (`valueAt`);
* **`sumEntries`** — the total of a measure that reads the keys too;
* **`Each`** — a property of every value, kept by `insert` and `erase`;
* **`ofList`** — the map a genesis build leaves when it inserts a list in order;
* **`Indexed`** — a second map whose keys are the distinct values of a field of the first;
* **`Drains`** — the lists a drain may yield: every entry once, in some order.
-/

namespace XXChain

/-- A storage map from `K` to `V`. -/
abbrev StorageMap (K V : Type) : Type := Finmap fun _ : K => V

namespace StorageMap

variable {K V : Type}

/-! ## Totals -/

/-- The total of `f` over the values of the map. -/
def sumBy (f : V → Nat) (m : StorageMap K V) : Nat :=
  (m.entries.map fun entry => f entry.2).sum

variable [DecidableEq K]

theorem sumBy_congr {f g : V → Nat} {m : StorageMap K V}
    (h : ∀ k v, m.lookup k = some v → f v = g v) : sumBy f m = sumBy g m := by
  unfold sumBy
  rw [Multiset.map_congr rfl]
  intro entry hentry
  exact h entry.1 entry.2 (Finmap.lookup_eq_some_iff.mpr hentry)

/-- What the entry at `k` contributes to `sumBy`: nothing when there is none. -/
def valueAt (f : V → Nat) (m : StorageMap K V) (k : K) : Nat :=
  ((m.lookup k).map f).getD 0

@[simp]
theorem valueAt_of_some {f : V → Nat} {m : StorageMap K V} {k : K} {v : V}
    (h : m.lookup k = some v) : valueAt f m k = f v := by
  simp [valueAt, h]

@[simp]
theorem valueAt_of_none {f : V → Nat} {m : StorageMap K V} {k : K}
    (h : m.lookup k = none) : valueAt f m k = 0 := by
  simp [valueAt, h]

theorem ne_of_lookup {m : StorageMap K V} {k k' : K} {v : V} (h : m.lookup k = some v)
    (h' : m.lookup k' = none) : k ≠ k' := by
  rintro rfl
  rw [h] at h'
  cases h'

theorem sumBy_insert_of_notMem {f : V → Nat} {m : StorageMap K V} {k : K} (v : V)
    (h : k ∉ m) : sumBy f (m.insert k v) = f v + sumBy f m := by
  simp [sumBy, Finmap.entries_insert_of_notMem h]

/-- Putting an entry back that was erased gives the map again. -/
theorem insert_erase {m : StorageMap K V} {k : K} {v : V} (h : m.lookup k = some v) :
    (m.erase k).insert k v = m := by
  refine Finmap.ext_lookup fun x => ?_
  by_cases hx : x = k
  · subst hx
    rw [Finmap.lookup_insert, h]
  · rw [Finmap.lookup_insert_of_ne _ hx, Finmap.lookup_erase_ne hx]

/-- Writing back what is stored changes nothing. -/
theorem insert_of_lookup {m : StorageMap K V} {k : K} {v : V} (h : m.lookup k = some v) :
    m.insert k v = m := by
  refine Finmap.ext_lookup fun x => ?_
  by_cases hx : x = k
  · subst hx
    rw [Finmap.lookup_insert, h]
  · rw [Finmap.lookup_insert_of_ne _ hx]

/-- Overwriting an entry leaves the keys as they are. -/
theorem keys_insert_of_lookup {m : StorageMap K V} {k : K} {v v' : V}
    (h : m.lookup k = some v) : (m.insert k v').keys = m.keys := by
  ext x
  rw [Finmap.mem_keys, Finmap.mem_keys, Finmap.mem_insert]
  have hmem : k ∈ m := Finmap.lookup_isSome.mp (by rw [h]; rfl)
  constructor
  · rintro (rfl | hx)
    · exact hmem
    · exact hx
  · exact Or.inr

theorem erase_of_lookup_none {m : StorageMap K V} {k : K} (h : m.lookup k = none) :
    m.erase k = m := by
  refine Finmap.ext_lookup fun x => ?_
  by_cases hx : x = k
  · subst hx
    rw [Finmap.lookup_erase, h]
  · rw [Finmap.lookup_erase_ne hx]

/-- What is not there is not there after an erasure either. -/
theorem lookup_erase_of_none {m : StorageMap K V} {k : K} (h : m.lookup k = none) (k' : K) :
    (m.erase k').lookup k = none := by
  by_cases hk : k = k'
  · rw [hk, Finmap.lookup_erase]
  · rw [Finmap.lookup_erase_ne hk, h]

/-- Erasing `k` takes exactly its contribution out of the total. -/
theorem sumBy_erase (f : V → Nat) (m : StorageMap K V) (k : K) :
    sumBy f (m.erase k) + valueAt f m k = sumBy f m := by
  cases h : m.lookup k with
  | none => rw [erase_of_lookup_none h, valueAt_of_none h, Nat.add_zero]
  | some v =>
    have hins := sumBy_insert_of_notMem (f := f) v (Finmap.notMem_erase_self (a := k) (s := m))
    rw [insert_erase h] at hins
    rw [valueAt_of_some h]
    omega

theorem insert_eq_erase_insert (m : StorageMap K V) (k : K) (v : V) :
    m.insert k v = (m.erase k).insert k v := by
  refine Finmap.ext_lookup fun x => ?_
  by_cases hx : x = k
  · subst hx
    simp
  · rw [Finmap.lookup_insert_of_ne _ hx, Finmap.lookup_insert_of_ne _ hx,
      Finmap.lookup_erase_ne hx]

/-- Writing `v` at `k` adds `f v` and takes out what was there before. -/
theorem sumBy_insert (f : V → Nat) (m : StorageMap K V) (k : K) (v : V) :
    sumBy f (m.insert k v) + valueAt f m k = sumBy f m + f v := by
  have herase := sumBy_erase f m k
  have hins := sumBy_insert_of_notMem (f := f) v (Finmap.notMem_erase_self (a := k) (s := m))
  rw [← insert_eq_erase_insert] at hins
  omega

/-- One entry contributes at most the total. -/
theorem valueAt_le_sumBy (f : V → Nat) (m : StorageMap K V) (k : K) :
    valueAt f m k ≤ sumBy f m := by
  have := sumBy_erase f m k
  omega

omit [DecidableEq K] in
theorem sumBy_mono {f g : V → Nat} (h : ∀ v, f v ≤ g v) (m : StorageMap K V) :
    sumBy f m ≤ sumBy g m :=
  Multiset.sum_map_le_sum_map _ _ fun entry _ => h entry.2

/-! ## Totals of a measure that reads the key -/

/-- The total of `f` over the entries of the map. -/
def sumEntries (f : K → V → Nat) (m : StorageMap K V) : Nat :=
  (m.entries.map fun entry => f entry.1 entry.2).sum

theorem sumEntries_insert_of_notMem {f : K → V → Nat} {m : StorageMap K V} {k : K} (v : V)
    (h : k ∉ m) : sumEntries f (m.insert k v) = f k v + sumEntries f m := by
  simp [sumEntries, Finmap.entries_insert_of_notMem h]

/-- The first entry at a key adds what it is worth. -/
theorem sumEntries_insert_of_none {f : K → V → Nat} {m : StorageMap K V} {k : K} (v : V)
    (h : m.lookup k = none) : sumEntries f (m.insert k v) = sumEntries f m + f k v := by
  rw [sumEntries_insert_of_notMem v (Finmap.lookup_eq_none.mp h), Nat.add_comm]

/-- Overwriting an entry adds what the new one is worth, and takes out the old one. -/
theorem sumEntries_insert_of_some {f : K → V → Nat} {m : StorageMap K V} {k : K} {v₀ : V} (v : V)
    (h : m.lookup k = some v₀) :
    sumEntries f (m.insert k v) + f k v₀ = sumEntries f m + f k v := by
  have hout : k ∉ m.erase k := Finmap.notMem_erase_self
  have hnew := sumEntries_insert_of_notMem (f := f) v hout
  have hold := sumEntries_insert_of_notMem (f := f) v₀ hout
  rw [insert_erase h] at hold
  rw [← insert_eq_erase_insert] at hnew
  omega

omit [DecidableEq K] in
theorem sum_keys (m : StorageMap K V) (g : K → Nat) :
    ∑ k ∈ m.keys, g k = sumEntries (fun k _ => g k) m := by
  unfold sumEntries
  show ((m.entries.map Sigma.fst).map g).sum = _
  rw [Multiset.map_map]
  rfl

/-- If the keys outside `s` add nothing, and no key adds more than `g`, the total is at most that
of `g` over `s`. -/
theorem sumEntries_le_sum {f : K → V → Nat} {g : K → Nat} {s : Finset K} {m : StorageMap K V}
    (hle : ∀ k v, m.lookup k = some v → f k v ≤ g k)
    (hout : ∀ k v, m.lookup k = some v → k ∉ s → f k v = 0) :
    sumEntries f m ≤ ∑ k ∈ s, g k := by
  have hkeys : sumEntries f m ≤ ∑ k ∈ m.keys, if k ∈ s then g k else 0 := by
    rw [sum_keys]
    refine Multiset.sum_map_le_sum_map _ _ fun entry hentry => ?_
    have hlook := Finmap.lookup_eq_some_iff.mpr hentry
    show f entry.1 entry.2 ≤ if entry.1 ∈ s then g entry.1 else 0
    by_cases hin : entry.1 ∈ s
    · rw [if_pos hin]
      exact hle _ _ hlook
    · rw [if_neg hin, hout _ _ hlook hin]
  refine hkeys.trans ?_
  rw [← Finset.sum_filter]
  apply Finset.sum_le_sum_of_subset
  intro k hk
  exact (Finset.mem_filter.mp hk).2

/-! ## Properties of every value -/

/-- Every value of the map has `P`. -/
def Each (P : V → Prop) (m : StorageMap K V) : Prop :=
  ∀ k v, m.lookup k = some v → P v

theorem each_empty (P : V → Prop) : Each P (∅ : StorageMap K V) := by
  intro k v h
  rw [Finmap.lookup_empty] at h
  cases h

theorem Each.imp {P Q : V → Prop} {m : StorageMap K V} (h : Each P m) (hPQ : ∀ v, P v → Q v) :
    Each Q m :=
  fun k v hv => hPQ v (h k v hv)

theorem Each.insert {P : V → Prop} {m : StorageMap K V} (h : Each P m) (k : K) {v : V}
    (hv : P v) : Each P (m.insert k v) := by
  intro x w hx
  by_cases hk : x = k
  · rw [hk, Finmap.lookup_insert] at hx
    cases hx
    exact hv
  · rw [Finmap.lookup_insert_of_ne _ hk] at hx
    exact h x w hx

theorem Each.erase {P : V → Prop} {m : StorageMap K V} (h : Each P m) (k : K) :
    Each P (m.erase k) := by
  intro x w hx
  by_cases hk : x = k
  · rw [hk, Finmap.lookup_erase] at hx
    cases hx
  · rw [Finmap.lookup_erase_ne hk] at hx
    exact h x w hx

/-- A total is zero when every part of it is. -/
theorem sumBy_eq_zero_iff {f : V → Nat} {m : StorageMap K V} :
    sumBy f m = 0 ↔ Each (fun v => f v = 0) m := by
  constructor
  · intro hzero k v hv
    have hle := valueAt_le_sumBy f m k
    rw [valueAt_of_some hv] at hle
    omega
  · intro hall
    rw [sumBy_congr (g := fun _ => 0) hall]
    simp [sumBy]

/-! ## Building a map from a list -/

/-- The map left by inserting the entries of `l` from left to right; a later entry
overwrites an earlier one with its key. -/
def ofList (l : List (K × V)) : StorageMap K V :=
  l.foldl (fun m entry => m.insert entry.1 entry.2) ∅

theorem ofList_concat (l : List (K × V)) (k : K) (v : V) :
    ofList (l ++ [(k, v)]) = (ofList l).insert k v := by
  simp [ofList]

theorem lookup_ofList_eq_none {l : List (K × V)} {k : K} (h : k ∉ l.map Prod.fst) :
    (ofList l).lookup k = none := by
  induction l using List.reverseRecOn with
  | nil => rfl
  | append_singleton l entry ih =>
    obtain ⟨k', v'⟩ := entry
    simp only [List.map_append, List.map_cons, List.map_nil, List.mem_append,
      List.mem_singleton, not_or] at h
    rw [ofList_concat, Finmap.lookup_insert_of_ne _ h.2, ih h.1]

/-- With distinct keys nothing is overwritten, so the total is the total of the list. -/
theorem sumBy_ofList (f : V → Nat) {l : List (K × V)} (hkeys : (l.map Prod.fst).Nodup) :
    sumBy f (ofList l) = (l.map fun entry => f entry.2).sum := by
  induction l using List.reverseRecOn with
  | nil => rfl
  | append_singleton l entry ih =>
    obtain ⟨k, v⟩ := entry
    rw [List.map_append, List.nodup_append] at hkeys
    -- `k` is not a key of the entries before it
    have hfresh : k ∉ l.map Prod.fst := fun hk => hkeys.2.2 k hk k (by simp) rfl
    have hinsert := sumBy_insert f (ofList l) k v
    rw [valueAt_of_none (lookup_ofList_eq_none hfresh), ih hkeys.1] at hinsert
    rw [ofList_concat, List.map_append, List.sum_append]
    simpa using hinsert

/-- Whatever is overwritten, the total is at most the total of the list. -/
theorem sumBy_ofList_le (f : V → Nat) (l : List (K × V)) :
    sumBy f (ofList l) ≤ (l.map fun entry => f entry.2).sum := by
  induction l using List.reverseRecOn with
  | nil => exact Nat.le_refl 0
  | append_singleton l entry ih =>
    obtain ⟨k, v⟩ := entry
    have hinsert := sumBy_insert f (ofList l) k v
    rw [ofList_concat, List.map_append, List.sum_append]
    simp only [List.map_cons, List.map_nil, List.sum_singleton]
    omega

theorem isSome_lookup_ofList {l : List (K × V)} {k : K} :
    ((ofList l).lookup k).isSome ↔ k ∈ l.map Prod.fst := by
  induction l using List.reverseRecOn with
  | nil => simp [ofList]
  | append_singleton l entry ih =>
    obtain ⟨k', v⟩ := entry
    rw [ofList_concat, List.map_append, List.mem_append]
    by_cases hk : k = k'
    · subst hk
      simp
    · rw [Finmap.lookup_insert_of_ne _ hk, ih]
      simp [hk]

theorem mem_of_lookup_ofList {l : List (K × V)} {k : K} {v : V}
    (h : (ofList l).lookup k = some v) : (k, v) ∈ l := by
  induction l using List.reverseRecOn with
  | nil => simp [ofList] at h
  | append_singleton l entry ih =>
    obtain ⟨k', v'⟩ := entry
    rw [ofList_concat] at h
    by_cases hk : k = k'
    · subst hk
      rw [Finmap.lookup_insert, Option.some.injEq] at h
      simp [h]
    · rw [Finmap.lookup_insert_of_ne _ hk] at h
      exact List.mem_append_left _ (ih h)

/-! ## Indexes -/

section Index

variable {I : Type} [DecidableEq I] {f : V → I} {m : StorageMap K V} {index : StorageMap I Unit}

/-- No two entries of `m` have the same `f`, and the keys of `index` are what `f` is. -/
structure Indexed (f : V → I) (m : StorageMap K V) (index : StorageMap I Unit) : Prop where
  keys : ∀ i, (index.lookup i).isSome ↔ ∃ k v, m.lookup k = some v ∧ f v = i
  unique : ∀ k k' v v', m.lookup k = some v → m.lookup k' = some v' → f v = f v' → k = k'

theorem indexed_empty (f : V → I) : Indexed f (∅ : StorageMap K V) ∅ := by
  constructor
  · intro i
    simp
  · intro k k' v v' h
    simp at h

theorem Indexed.mem (h : Indexed f m index) {k : K} {v : V} (hk : m.lookup k = some v) :
    (index.lookup (f v)).isSome :=
  (h.keys _).mpr ⟨k, v, hk, rfl⟩

/-- An entry that keeps its `f` may be written. -/
theorem Indexed.set (h : Indexed f m index) {k : K} {v v' : V} (hk : m.lookup k = some v)
    (hf : f v' = f v) : Indexed f (m.insert k v') index := by
  -- each entry has the key and the `f` that it had
  have hback : ∀ x w, (m.insert k v').lookup x = some w →
      ∃ w', m.lookup x = some w' ∧ f w' = f w := by
    intro x w hx
    by_cases hxk : x = k
    · subst hxk
      rw [Finmap.lookup_insert] at hx
      cases hx
      exact ⟨v, hk, hf.symm⟩
    · rw [Finmap.lookup_insert_of_ne _ hxk] at hx
      exact ⟨w, hx, rfl⟩
  constructor
  · intro i
    rw [h.keys]
    constructor
    · rintro ⟨x, w, hx, hi⟩
      by_cases hxk : x = k
      · subst hxk
        rw [hk] at hx
        cases hx
        exact ⟨x, v', Finmap.lookup_insert _, hf.trans hi⟩
      · exact ⟨x, w, (Finmap.lookup_insert_of_ne _ hxk).trans hx, hi⟩
    · rintro ⟨x, w, hx, hi⟩
      obtain ⟨w', hx', hw'⟩ := hback x w hx
      exact ⟨x, w', hx', hw'.trans hi⟩
  · intro x y w w' hx hy hww'
    obtain ⟨u, hx', hu⟩ := hback x w hx
    obtain ⟨u', hy', hu'⟩ := hback y w' hy
    exact h.unique x y u u' hx' hy' (hu.trans (hww'.trans hu'.symm))

theorem Indexed.insert (h : Indexed f m index) {k : K} {v : V} (hk : m.lookup k = none)
    (hf : index.lookup (f v) = none) :
    Indexed f (m.insert k v) (index.insert (f v) ()) := by
  have hother : ∀ x w, m.lookup x = some w → f w ≠ f v := by
    intro x w hx
    exact (ne_of_lookup (Option.eq_some_of_isSome (h.mem hx)) hf)
  constructor
  · intro i
    by_cases hi : i = f v
    · subst hi
      simp only [Finmap.lookup_insert, Option.isSome_some, true_iff]
      exact ⟨k, v, Finmap.lookup_insert _, rfl⟩
    · rw [Finmap.lookup_insert_of_ne _ hi, h.keys]
      constructor
      · rintro ⟨x, w, hx, hw⟩
        have hxk : x ≠ k := ne_of_lookup hx hk
        exact ⟨x, w, (Finmap.lookup_insert_of_ne _ hxk).trans hx, hw⟩
      · rintro ⟨x, w, hx, hw⟩
        by_cases hxk : x = k
        · subst hxk
          rw [Finmap.lookup_insert] at hx
          cases hx
          exact absurd hw.symm hi
        · rw [Finmap.lookup_insert_of_ne _ hxk] at hx
          exact ⟨x, w, hx, hw⟩
  · intro x y w w' hx hy hww'
    by_cases hxk : x = k <;> by_cases hyk : y = k
    · rw [hxk, hyk]
    · subst hxk
      rw [Finmap.lookup_insert] at hx
      rw [Finmap.lookup_insert_of_ne _ hyk] at hy
      cases hx
      exact absurd hww'.symm (hother y w' hy)
    · subst hyk
      rw [Finmap.lookup_insert_of_ne _ hxk] at hx
      rw [Finmap.lookup_insert] at hy
      cases hy
      exact absurd hww' (hother x w hx)
    · rw [Finmap.lookup_insert_of_ne _ hxk] at hx
      rw [Finmap.lookup_insert_of_ne _ hyk] at hy
      exact h.unique x y w w' hx hy hww'

/-- An entry leaves both maps. -/
theorem Indexed.erase (h : Indexed f m index) {k : K} {v : V} (hk : m.lookup k = some v) :
    Indexed f (m.erase k) (index.erase (f v)) := by
  have hback : ∀ x w, (m.erase k).lookup x = some w → x ≠ k ∧ m.lookup x = some w := by
    intro x w hx
    have hxk : x ≠ k := ne_of_lookup hx (Finmap.lookup_erase _ _)
    exact ⟨hxk, (Finmap.lookup_erase_ne hxk).symm.trans hx⟩
  constructor
  · intro i
    by_cases hi : i = f v
    · subst hi
      rw [Finmap.lookup_erase]
      refine iff_of_false (by simp) ?_
      rintro ⟨x, w, hx, hw⟩
      obtain ⟨hxk, hx'⟩ := hback x w hx
      exact hxk (h.unique x k w v hx' hk hw)
    · rw [Finmap.lookup_erase_ne hi, h.keys]
      constructor
      · rintro ⟨x, w, hx, hw⟩
        have hxk : x ≠ k := by
          rintro rfl
          rw [hk] at hx
          cases hx
          exact hi hw.symm
        exact ⟨x, w, (Finmap.lookup_erase_ne hxk).trans hx, hw⟩
      · rintro ⟨x, w, hx, hw⟩
        exact ⟨x, w, (hback x w hx).2, hw⟩
  · intro x y w w' hx hy
    exact h.unique x y w w' (hback x w hx).2 (hback y w' hy).2

/-- An entry may be moved to a new key. -/
theorem Indexed.rekey (h : Indexed f m index) {k k' : K} {v : V} (hk : m.lookup k = some v)
    (hk' : m.lookup k' = none) : Indexed f ((m.erase k).insert k' v) index := by
  obtain ⟨u, hu⟩ := Option.isSome_iff_exists.mp (h.mem hk)
  have herased := h.erase hk
  have hfresh : (m.erase k).lookup k' = none := by
    rw [Finmap.lookup_erase_ne (ne_of_lookup hk hk').symm, hk']
  have hinserted := herased.insert hfresh (Finmap.lookup_erase _ _)
  rw [insert_erase hu] at hinserted
  exact hinserted

end Index

/-! ## Draining a map -/

/-- `l` is one of the orders in which a drain of `m` can yield its entries. -/
def Drains (l : List (K × V)) (m : StorageMap K V) : Prop :=
  ((l.map fun entry => (⟨entry.1, entry.2⟩ : Sigma fun _ : K => V)) :
    Multiset (Sigma fun _ : K => V)) = m.entries

instance [DecidableEq V] (l : List (K × V)) (m : StorageMap K V) : Decidable (Drains l m) := by
  unfold Drains
  infer_instance

omit [DecidableEq K] in
theorem Drains.eq_empty {m : StorageMap K V} (h : Drains [] m) : m = ∅ :=
  Finmap.ext h.symm

/-- The first entry a drain yields is in the map, and the rest drains what is left. -/
theorem Drains.cons {k : K} {v : V} {l : List (K × V)} {m : StorageMap K V}
    (h : Drains ((k, v) :: l) m) : m.lookup k = some v ∧ Drains l (m.erase k) := by
  have hmem : (⟨k, v⟩ : Sigma fun _ : K => V) ∈ m.entries := by
    rw [← h]
    simp
  have hlookup : m.lookup k = some v := Finmap.lookup_eq_some_iff.mpr hmem
  refine ⟨hlookup, ?_⟩
  -- both sides are what is left of `m.entries` without `⟨k, v⟩`
  have hentries : m.entries = ⟨k, v⟩ ::ₘ (m.erase k).entries := by
    rw [← Finmap.entries_insert_of_notMem Finmap.notMem_erase_self, insert_erase hlookup]
  unfold Drains at h ⊢
  rw [hentries, List.map_cons, ← Multiset.cons_coe] at h
  exact (Multiset.cons_inj_right _).mp h

/-- Of what a loop over a drain reads or writes of one key, only the step of that key makes a
change. -/
theorem Drains.foldl_view {S β : Type*} {f : S → K × V → S} (view : S → β) (g : V → β → β) {k : K}
    (hself : ∀ s v, view (f s (k, v)) = g v (view s))
    (hothers : ∀ s k' v, k' ≠ k → view (f s (k', v)) = view s)
    {l : List (K × V)} {m : StorageMap K V} (h : Drains l m) (s : S) :
    view (l.foldl f s) = (m.lookup k).elim (view s) fun v => g v (view s) := by
  induction l generalizing m s with
  | nil =>
    rw [h.eq_empty]
    rfl
  | cons entry l ih =>
    obtain ⟨k', v⟩ := entry
    obtain ⟨hk', hrest⟩ := h.cons
    rw [List.foldl_cons, ih hrest]
    by_cases hk : k' = k
    · subst hk
      rw [Finmap.lookup_erase, hk']
      exact hself s v
    · rw [Finmap.lookup_erase_ne (Ne.symm hk), hothers s k' v hk]

end StorageMap

end XXChain
