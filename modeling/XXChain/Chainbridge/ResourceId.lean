import Mathlib.Data.List.TakeWhile
import XXChain.Chainbridge.Model

/-!
# XXChain — resource ids

`derive_resource_id` fills an array of 32 bytes from the right: the chain last, and before it at
most 31 bytes of an id, one index running down the array and another down the id. An index out
of bounds would be a panic, for which `none` stands.

* **`leftpad_eq_iff`** — padding on the left forgets the padding that was there, and only that;
* **`fillResourceId_eq`** — what is filled in after any number of steps;
* **`deriveResourceId_eq`** — the 32 bytes, for every chain and id;
* **`derive_resource_id_layout`** — which chains and ids have one resource id.
-/

namespace XXChain

/-! ## Padding on the left -/

section LeftPad

variable {α : Type} [DecidableEq α] {n : Nat} {z : α} {l l' : List α}

theorem dropWhile_leftpad (n : Nat) (z : α) (l : List α) :
    (l.leftpad n z).dropWhile (· == z) = l.dropWhile (· == z) := by
  unfold List.leftpad
  apply List.dropWhile_append_of_pos
  intro a ha
  rw [List.eq_of_mem_replicate ha]
  exact beq_self_eq_true z

/-- The padding takes the place of what is left out of it. -/
theorem leftpad_dropWhile (h : l.length ≤ n) :
    (l.dropWhile (· == z)).leftpad n z = l.leftpad n z := by
  have hsplit : l.takeWhile (· == z) ++ l.dropWhile (· == z) = l := List.takeWhile_append_dropWhile
  have hleading : l.takeWhile (· == z) = List.replicate (l.takeWhile (· == z)).length z := by
    apply List.eq_replicate_of_mem
    intro a ha
    have hleads := List.mem_takeWhile_imp ha
    exact beq_iff_eq.mp hleads
  have hlength := congrArg List.length hsplit
  rw [List.length_append] at hlength
  have hpad : n - (l.dropWhile (· == z)).length =
      n - l.length + (l.takeWhile (· == z)).length := by omega
  unfold List.leftpad
  rw [hpad, List.replicate_add, List.append_assoc, ← hleading, hsplit]

theorem leftpad_eq_iff (h : l.length ≤ n) (h' : l'.length ≤ n) :
    l.leftpad n z = l'.leftpad n z ↔ l.dropWhile (· == z) = l'.dropWhile (· == z) := by
  constructor
  · intro heq
    rw [← dropWhile_leftpad n z l, heq, dropWhile_leftpad]
  · intro heq
    rw [← leftpad_dropWhile h, heq, leftpad_dropWhile h']

omit [DecidableEq α] in
/-- The last of the padding gives way to an element. -/
theorem set_replicate_append (n : Nat) (z b : α) (rest : List α) :
    (List.replicate (n + 1) z ++ rest).set n b = List.replicate n z ++ b :: rest := by
  induction n with
  | zero => rfl
  | succ n ih =>
    rw [List.replicate_succ, List.cons_append, List.set_cons_succ, ih, List.replicate_succ,
      List.cons_append]

end LeftPad

namespace Chainbridge

/-! ## The loop -/

/-- The difference of two indices, which must not be negative. -/
def subIndex (a b : Nat) : Option Nat :=
  if b ≤ a then some (a - b) else none

/-- Writes a byte at an index, which must be in bounds. -/
def setByte (rId : ResourceId) (i : Nat) (b : UInt8) : Option ResourceId :=
  if h : i < 32 then some (rId.set i b) else none

/-- One round of the loop. -/
def fillByte (id : List UInt8) (range : Nat) (rId : ResourceId) (i : Nat) :
    Option ResourceId := do
  let source ← subIndex (range - 1) i
  let b ← id[source]?
  let target ← subIndex 30 i
  setByte rId target b

/-- Concatenates a chain id and some bytes to a resource id: at most 31 bytes of a unique id,
padded on the left, and the chain id. -/
def deriveResourceId (chain : ChainId) (id : List UInt8) : Option ResourceId := do
  let rId ← setByte (Vector.replicate 32 0) 31 chain
  let range := if 31 < id.length then 31 else id.length
  (List.range range).foldlM (fillByte id range) rId

variable {id : List UInt8} {range n : Nat} {rId : ResourceId} {rest : List UInt8}

/-- A round takes the next byte of the id into the last byte of the padding. -/
theorem fillByte_eq (hrange : range ≤ id.length) (hmax : range ≤ 31) (hn : n < range)
    (hrId : rId.toList = List.replicate (31 - n) 0 ++ rest) :
    ∃ rId', fillByte id range rId n = some rId' ∧
      rId'.toList = List.replicate (31 - (n + 1)) 0 ++ id[range - 1 - n] :: rest := by
  have hsource : range - 1 - n < id.length := by omega
  have htarget : 30 - n < 32 := by omega
  refine ⟨rId.set (30 - n) id[range - 1 - n], ?_, ?_⟩
  · unfold fillByte subIndex setByte
    rw [if_pos (by omega), if_pos (by omega)]
    simp [hsource, htarget]
  · have hpad : 31 - n = 30 - n + 1 := by omega
    have hnext : 31 - (n + 1) = 30 - n := by omega
    rw [Vector.toList_set, hrId, hpad, hnext, set_replicate_append]

/-- After `n` rounds the last `n` of the bytes that are used have taken the place of the
padding. -/
theorem fillResourceId_eq (hrange : range ≤ id.length) (hmax : range ≤ 31) (hn : n ≤ range)
    (hrId : rId.toList = List.replicate 31 0 ++ rest) :
    ∃ rId', (List.range n).foldlM (fillByte id range) rId = some rId' ∧
      rId'.toList =
        List.replicate (31 - n) 0 ++ ((id.take range).drop (range - n) ++ rest) := by
  induction n with
  | zero =>
    refine ⟨rId, rfl, ?_⟩
    rw [hrId, Nat.sub_zero, Nat.sub_zero, List.drop_of_length_le (List.length_take_le _ _),
      List.nil_append]
  | succ n ih =>
    obtain ⟨rId₁, hfill, hbytes⟩ := ih (by omega)
    obtain ⟨rId₂, hround, hbytes'⟩ := fillByte_eq hrange hmax hn hbytes
    refine ⟨rId₂, ?_, ?_⟩
    · rw [List.range_succ, List.foldlM_append, hfill]
      simpa using hround
    · have hfrom : range - (n + 1) < (id.take range).length := by
        rw [List.length_take]
        omega
      have hindex : range - (n + 1) = range - 1 - n := by omega
      have hnext : range - (n + 1) + 1 = range - n := by omega
      rw [hbytes', List.drop_eq_getElem_cons hfrom, hnext, List.cons_append, List.getElem_take]
      simp only [hindex]

/-! ## The resource id -/

theorem deriveResourceId_eq (chain : ChainId) (id : List UInt8) :
    ∃ rId, deriveResourceId chain id = some rId ∧
      rId.toList =
        List.replicate (31 - min id.length 31) 0 ++ (id.take (min id.length 31) ++ [chain]) := by
  have hfirst : setByte (Vector.replicate 32 0) 31 chain =
      some ((Vector.replicate 32 0).set 31 chain) := rfl
  have hrange : (if 31 < id.length then 31 else id.length) = min id.length 31 := by
    split <;> omega
  have hrId : ((Vector.replicate 32 0).set 31 chain).toList = List.replicate 31 0 ++ [chain] := rfl
  obtain ⟨rId, hfill, hbytes⟩ := fillResourceId_eq (Nat.min_le_left id.length 31)
    (Nat.min_le_right id.length 31) le_rfl hrId
  refine ⟨rId, ?_, ?_⟩
  · unfold deriveResourceId
    rw [hfirst, hrange]
    exact hfill
  · rw [hbytes, Nat.sub_self, List.drop_zero]

theorem deriveResourceId_of_length_le (chain : ChainId) (h : id.length ≤ 31) :
    ∃ rId, deriveResourceId chain id = some rId ∧ rId.toList = id.leftpad 31 0 ++ [chain] := by
  obtain ⟨rId, hrId, hbytes⟩ := deriveResourceId_eq chain id
  refine ⟨rId, hrId, ?_⟩
  rw [hbytes, Nat.min_eq_left h, List.take_length, List.leftpad, List.append_assoc]

/-- For every chain and every id no index is out of bounds, and the resource id is the padding,
the first bytes of the id in order and the chain; with ids of at most 31 bytes, the chain and
the id but for leading zeros can be read off it. -/
theorem derive_resource_id_layout :
    (∀ (chain : ChainId) (id : List UInt8), ∃ rId, deriveResourceId chain id = some rId ∧
      rId.toList =
        List.replicate (31 - min id.length 31) 0 ++ (id.take (min id.length 31) ++ [chain])) ∧
    ∀ (chain chain' : ChainId) (id id' : List UInt8), id.length ≤ 31 → id'.length ≤ 31 →
      (deriveResourceId chain id = deriveResourceId chain' id' ↔
        chain = chain' ∧ id.dropWhile (· == 0) = id'.dropWhile (· == 0)) := by
  refine ⟨deriveResourceId_eq, fun chain chain' id id' hlen hlen' => ?_⟩
  obtain ⟨rId, hrId, hbytes⟩ := deriveResourceId_of_length_le chain hlen
  obtain ⟨rId', hrId', hbytes'⟩ := deriveResourceId_of_length_le chain' hlen'
  rw [hrId, hrId', Option.some.injEq, ← Vector.toList_inj, hbytes, hbytes',
    ← leftpad_eq_iff hlen hlen']
  constructor
  · intro h
    obtain ⟨hid, hchain⟩ := List.append_inj' h rfl
    exact ⟨List.singleton_inj.mp hchain, hid⟩
  · rintro ⟨hchain, hid⟩
    rw [hchain, hid]

theorem derive_resource_id_padded :
    deriveResourceId 1 [0, 0x21, 0] = deriveResourceId 1 [0x21, 0] :=
  (derive_resource_id_layout.2 1 1 [0, 0x21, 0] [0x21, 0] (by decide) (by decide)).mpr ⟨rfl, rfl⟩

end Chainbridge

end XXChain
