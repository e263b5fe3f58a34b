import Mathlib.Data.List.Basic
import Mathlib.Tactic.IntervalCases

/-!
# XXChain — hex text

Bytes written as two lower-case hex digits each, and a lenient reader of such text: it skips
ASCII whitespace between the digits, and refuses any other character and an odd number of
digits.

* **`fromHex_ok_iff`** — the reader returns the bytes that the digits of the text denote, if
  they denote any;
* **`denotes_toHex`** — what is written denotes the bytes it was written from.
-/

namespace XXChain

/-! ## Digits -/

/-- The value of a hex digit of either case. -/
def hexValue (c : Char) : Option UInt8 :=
  if 48 ≤ c.toNat ∧ c.toNat ≤ 57 then some (UInt8.ofNat (c.toNat - 48))
  else if 65 ≤ c.toNat ∧ c.toNat ≤ 70 then some (UInt8.ofNat (c.toNat - 55))
  else if 97 ≤ c.toNat ∧ c.toNat ≤ 102 then some (UInt8.ofNat (c.toNat - 87))
  else none

def isHexSpace (c : Char) : Bool :=
  c == ' ' || c == '\t' || c == '\r' || c == '\n'

theorem hexValue_lt {c : Char} {d : UInt8} (h : hexValue c = some d) : d.toNat < 16 := by
  unfold hexValue at h
  split_ifs at h <;> cases h <;> rw [UInt8.toNat_ofNat'] <;> omega

theorem hexValue_of_isHexSpace {c : Char} (h : isHexSpace c = true) : hexValue c = none := by
  simp only [isHexSpace, Bool.or_eq_true, beq_iff_eq] at h
  rcases h with ((h | h) | h) | h <;> subst h <;> rfl

theorem not_isHexSpace_of_hexValue {c : Char} {d : UInt8} (h : hexValue c = some d) :
    isHexSpace c = false := by
  cases hspace : isHexSpace c with
  | false => rfl
  | true =>
    rw [hexValue_of_isHexSpace hspace] at h
    cases h

/-- The digits and the whitespace are one byte each in UTF-8. -/
theorem utf8Size_of_hex {c : Char} (h : (hexValue c).isSome = true ∨ isHexSpace c = true) :
    c.utf8Size = 1 := by
  have hascii : c.toNat ≤ 127 := by
    cases h with
    | inl h =>
      unfold hexValue at h
      split_ifs at h <;> first | omega | cases h
    | inr h =>
      simp only [isHexSpace, Bool.or_eq_true, beq_iff_eq] at h
      rcases h with ((h | h) | h) | h <;> subst h <;> decide
  exact Char.utf8Size_eq_one_iff.mpr hascii

theorem hexValue_digitChar {n : Nat} (h : n < 16) :
    hexValue (Nat.digitChar n) = some (UInt8.ofNat n) := by
  interval_cases n <;> rfl

/-! ## Writing -/

def toHex (bytes : List UInt8) : List Char :=
  bytes.flatMap fun b => [Nat.digitChar (b / 16).toNat, Nat.digitChar (b % 16).toNat]

/-- The values of the digits of the bytes, in order. -/
def halves (bytes : List UInt8) : List (Option UInt8) :=
  bytes.flatMap fun b => [some (b / 16), some (b % 16)]

/-- The characters are the hex digits of the bytes, in either case. -/
def Denotes (digits : List Char) (bytes : List UInt8) : Prop :=
  digits.map hexValue = halves bytes

instance (digits : List Char) (bytes : List UInt8) : Decidable (Denotes digits bytes) :=
  inferInstanceAs (Decidable (_ = _))

@[simp]
theorem halves_nil : halves [] = [] := rfl

@[simp]
theorem halves_cons (b : UInt8) (bytes : List UInt8) :
    halves (b :: bytes) = some (b / 16) :: some (b % 16) :: halves bytes := rfl

theorem length_halves (bytes : List UInt8) : (halves bytes).length = 2 * bytes.length := by
  induction bytes with
  | nil => rfl
  | cons b bytes ih =>
    rw [halves_cons, List.length_cons, List.length_cons, ih, List.length_cons]
    omega

theorem isSome_of_mem_halves {bytes : List UInt8} {x : Option UInt8} (h : x ∈ halves bytes) :
    x.isSome = true := by
  obtain ⟨b, _, hx⟩ := List.mem_flatMap.mp h
  simp only [List.mem_cons, List.not_mem_nil, or_false] at hx
  cases hx with
  | inl hx => rw [hx]; rfl
  | inr hx => rw [hx]; rfl

theorem Denotes.length {digits : List Char} {bytes : List UInt8} (h : Denotes digits bytes) :
    digits.length = 2 * bytes.length := by
  rw [← length_halves, ← h, List.length_map]

theorem Denotes.isSome {digits : List Char} {bytes : List UInt8} (h : Denotes digits bytes) :
    ∀ c ∈ digits, (hexValue c).isSome = true := by
  intro c hc
  have hmem : hexValue c ∈ halves bytes := by
    rw [← h]
    exact List.mem_map_of_mem hc
  exact isSome_of_mem_halves hmem

theorem toNat_div_mod (b : UInt8) :
    (b / 16).toNat = b.toNat / 16 ∧ (b % 16).toNat = b.toNat % 16 :=
  ⟨UInt8.toNat_div b 16, UInt8.toNat_mod b 16⟩

theorem denotes_toHex (bytes : List UInt8) : Denotes (toHex bytes) bytes := by
  induction bytes with
  | nil => rfl
  | cons b bytes ih =>
    obtain ⟨hdiv, hmod⟩ := toNat_div_mod b
    have hb := b.toNat_lt
    have hhigh := hexValue_digitChar (n := (b / 16).toNat) (by omega)
    have hlow := hexValue_digitChar (n := (b % 16).toNat) (by omega)
    rw [UInt8.ofNat_toNat] at hhigh hlow
    show hexValue _ :: hexValue _ :: (toHex bytes).map hexValue = _
    rw [hhigh, hlow, ih, halves_cons]

/-! ## Reading -/

inductive FromHexError where
  | invalidHexCharacter (c : Char) (index : Nat)
  | invalidHexLength
  deriving DecidableEq, Repr

/-- The reader from a byte index on; `pending` is the first digit of a pair that was read. -/
def readHex (pending : Option UInt8) (index : Nat) : List Char → Except FromHexError (List UInt8)
  | [] =>
    match pending with
    | none => .ok []
    | some _ => .error .invalidHexLength
  | c :: text =>
    if isHexSpace c then readHex pending (index + c.utf8Size) text
    else
      match hexValue c with
      | none => .error (.invalidHexCharacter c index)
      | some low =>
        match pending with
        | none => readHex (some low) (index + c.utf8Size) text
        | some high => (readHex none (index + c.utf8Size) text).map ((16 * high + low) :: ·)

def fromHex (text : List Char) : Except FromHexError (List UInt8) :=
  readHex none 0 text

/-- The characters that the reader does not skip. -/
def hexDigits (text : List Char) : List Char :=
  text.filter fun c => !isHexSpace c

theorem hexDigits_cons_of_space {c : Char} (h : isHexSpace c = true) (text : List Char) :
    hexDigits (c :: text) = hexDigits text :=
  List.filter_cons_of_neg (by simp [h])

theorem hexDigits_cons_of_digit {c : Char} (h : isHexSpace c = false) (text : List Char) :
    hexDigits (c :: text) = c :: hexDigits text :=
  List.filter_cons_of_pos (by simp [h])

/-- Two digits make a byte, and the byte has these digits. -/
theorem byte_eq_iff {high low b : UInt8} (hhigh : high.toNat < 16) (hlow : low.toNat < 16) :
    16 * high + low = b ↔ high = b / 16 ∧ low = b % 16 := by
  obtain ⟨hdiv, hmod⟩ := toNat_div_mod b
  have hb := b.toNat_lt
  have hsum : (16 * high + low).toNat = 16 * high.toNat + low.toNat := by
    rw [UInt8.toNat_add, UInt8.toNat_mul]
    show (16 * high.toNat % 256 + low.toNat) % 256 = _
    omega
  rw [← UInt8.toNat_inj, ← UInt8.toNat_inj, ← UInt8.toNat_inj, hsum, hdiv, hmod]
  omega

/-- Two digits and more denote a byte and more. -/
theorem pair_eq_halves_iff {high low : UInt8} {digits : List (Option UInt8)} {bytes : List UInt8}
    (hhigh : high.toNat < 16) (hlow : low.toNat < 16) :
    some high :: some low :: digits = halves bytes ↔
      ∃ rest, digits = halves rest ∧ (16 * high + low) :: rest = bytes := by
  constructor
  · intro h
    cases bytes with
    | nil => cases h
    | cons b rest =>
      simp only [halves_cons, List.cons.injEq, Option.some.injEq] at h
      have hbyte : 16 * high + low = b := (byte_eq_iff hhigh hlow).mpr ⟨h.1, h.2.1⟩
      exact ⟨rest, h.2.2, by rw [hbyte]⟩
  · rintro ⟨rest, hdigits, hbytes⟩
    obtain ⟨hdiv, hmod⟩ := (byte_eq_iff hhigh hlow).mp rfl
    rw [← hbytes, halves_cons, ← hdiv, ← hmod, hdigits]

theorem map_cons_eq_ok {α ε : Type} {r : Except ε (List α)} {a : α} {l : List α} :
    r.map (a :: ·) = .ok l ↔ ∃ rest, r = .ok rest ∧ a :: rest = l := by
  cases r with
  | error e => simp [Except.map]
  | ok rest => simp [Except.map]

/-- What is read is what the digits denote, with one that is pending before them. The induction
is on the text. -/
theorem readHex_ok_iff {pending : Option UInt8} (hpending : ∀ d ∈ pending, d.toNat < 16)
    (index : Nat) (text : List Char) (bytes : List UInt8) :
    readHex pending index text = .ok bytes ↔
      pending.toList.map some ++ (hexDigits text).map hexValue = halves bytes := by
  induction text generalizing pending index bytes with
  | nil =>
    cases pending with
    | none =>
      cases bytes with
      | nil => simp [readHex, hexDigits]
      | cons b bytes => simp [readHex, hexDigits]
    | some d =>
      refine iff_of_false (by simp [readHex]) fun h => ?_
      have hlength := congrArg List.length h
      rw [length_halves] at hlength
      have hone : 1 = 2 * bytes.length := hlength
      omega
  | cons c text ih =>
    unfold readHex
    cases hspace : isHexSpace c with
    | true =>
      rw [if_pos rfl, ih hpending, hexDigits_cons_of_space hspace]
    | false =>
      rw [if_neg Bool.false_ne_true, hexDigits_cons_of_digit hspace, List.map_cons]
      cases hvalue : hexValue c with
      | none =>
        refine iff_of_false nofun fun h => ?_
        have hmem : none ∈ halves bytes := by
          rw [← h]
          simp
        cases isSome_of_mem_halves hmem
      | some low =>
        have hlow := hexValue_lt hvalue
        cases pending with
        | none =>
          have hlow' : ∀ d ∈ some low, d.toNat < 16 := by
            intro d hd
            cases hd
            exact hlow
          exact ih hlow' _ bytes
        | some high =>
          -- the second digit of a pair completes a byte
          have hnone : ∀ d ∈ (none : Option UInt8), d.toNat < 16 := nofun
          show (readHex none (index + c.utf8Size) text).map ((16 * high + low) :: ·) = _ ↔
            some high :: some low :: (hexDigits text).map hexValue = halves bytes
          rw [map_cons_eq_ok, pair_eq_halves_iff (hpending high rfl) hlow]
          exact exists_congr fun rest => and_congr (ih hnone _ rest) Iff.rfl

theorem fromHex_ok_iff {text : List Char} {bytes : List UInt8} :
    fromHex text = .ok bytes ↔ Denotes (hexDigits text) bytes :=
  readHex_ok_iff (fun _ h => by cases h) 0 text bytes

end XXChain
