import XXChain.Claims.Model
import XXChain.Lib.Hex

/-!
# XXChain — the text of an Ethereum address

An address is written as `0x` and 40 hex digits. The reader allows the prefix to be left out,
tests the length of the rest in bytes, hands it to a hex reader that skips whitespace, and
copies what comes back into the 20 bytes of the address, which panics on any other length.

* **`deserialize_address_iff`** — an address is accepted from the texts that spell it;
* **`deserialize_panic_iff`** — the texts on which the copy panics: digits padded with whitespace
  to the right length;
* **`address_text_iff`** — all other texts are read as meant, or refused.
-/

namespace XXChain.Claims

/-! ## Writing and reading -/

inductive DeserializeError where
  | custom (message : String)
  | hex (e : FromHexError)
  deriving DecidableEq, Repr

/-- What comes of a text. -/
inductive Deserialized where
  | address (a : EthereumAddress)
  | error (e : DeserializeError)
  | panic
  deriving DecidableEq

def serialize (a : EthereumAddress) : String :=
  "0x" ++ String.ofList (toHex a.toList)

/-- The text without the prefix `0x`, if it has one. -/
def stripOx : List Char → List Char
  | '0' :: 'x' :: s => s
  | s => s

/-- The length of a text in UTF-8. -/
def byteLength (s : List Char) : Nat :=
  (s.map Char.utf8Size).sum

/-- Fills the address, which must take all of the bytes. -/
def copyFromSlice (raw : List UInt8) : Deserialized :=
  if h : raw.length = 20 then .address ⟨raw.toArray, by simpa using h⟩ else .panic

def deserialize (baseString : String) : Deserialized :=
  let s := stripOx baseString.toList
  if byteLength s ≠ 40 then
    .error (.custom "Bad length of Ethereum address (should be 42 including '0x')")
  else
    match fromHex s with
    | .error e => .error (.hex e)
    | .ok raw => copyFromSlice raw

/-! ## What is meant -/

/-- The digits after an optional prefix. -/
def Spells (text : String) (digits : List Char) : Prop :=
  text.toList = digits ∨ text.toList = '0' :: 'x' :: digits

/-- An optional `0x`, and 40 hex digits. -/
def IsText (text : String) : Prop :=
  ∃ digits, Spells text digits ∧ digits.length = 40 ∧
    ∀ c ∈ digits, (hexValue c).isSome = true

/-- The text is read as meant: it is accepted if it is an address, as the bytes that its digits
denote, and refused with an error if it is not. -/
structure ReadAsMeant (text : String) : Prop where
  safe : deserialize text ≠ .panic
  accepted : (∃ a, deserialize text = .address a) ↔ IsText text
  denoted : ∀ a, deserialize text = .address a →
    ∃ digits, Spells text digits ∧ Denotes digits a.toList
  refused : ¬ IsText text → ∃ e, deserialize text = .error e

/-- After an optional `0x`, 40 characters that are hex digits and whitespace, with an even number
of digits and some whitespace. -/
structure Padded (text : String) : Prop where
  length : (stripOx text.toList).length = 40
  chars : ∀ c ∈ stripOx text.toList, (hexValue c).isSome = true ∨ isHexSpace c = true
  space : ∃ c ∈ stripOx text.toList, isHexSpace c = true
  even : Even (hexDigits (stripOx text.toList)).length

/-! ## Lengths -/

variable {s digits : List Char} {text : String} {raw : List UInt8} {a : EthereumAddress}

/-- Hex digits and whitespace have one byte each. -/
theorem byteLength_of_hex
    (h : ∀ c ∈ s, (hexValue c).isSome = true ∨ isHexSpace c = true) : byteLength s = s.length := by
  induction s with
  | nil => rfl
  | cons c s ih =>
    have hc := utf8Size_of_hex (h c List.mem_cons_self)
    have hs := ih fun c hc => h c (List.mem_cons_of_mem _ hc)
    show c.utf8Size + byteLength s = s.length + 1
    omega

/-- What is read has half as many bytes as the text digits. -/
theorem length_fromHex (h : fromHex s = .ok raw) : (hexDigits s).length = 2 * raw.length :=
  (fromHex_ok_iff.mp h).length

theorem hexDigits_of_hexValue (h : ∀ c ∈ s, (hexValue c).isSome = true) : hexDigits s = s := by
  apply List.filter_eq_self.mpr
  intro c hc
  obtain ⟨d, hd⟩ := Option.isSome_iff_exists.mp (h c hc)
  rw [not_isHexSpace_of_hexValue hd]
  rfl

theorem hexDigits_of_length (h : (hexDigits s).length = s.length) : hexDigits s = s :=
  List.filter_eq_self.mpr (List.length_filter_eq_length_iff.mp h)

/-- As many digits as characters means no whitespace. -/
theorem length_hexDigits_iff :
    (hexDigits s).length = s.length ↔ ¬ ∃ c ∈ s, isHexSpace c = true := by
  unfold hexDigits
  rw [List.length_filter_eq_length_iff]
  simp

/-- A text that the hex reader accepts has digits and whitespace only. -/
theorem chars_of_fromHex (h : fromHex s = .ok raw) :
    ∀ c ∈ s, (hexValue c).isSome = true ∨ isHexSpace c = true := by
  intro c hc
  cases hspace : isHexSpace c with
  | true => exact Or.inr rfl
  | false =>
    refine Or.inl ((fromHex_ok_iff.mp h).isSome c (List.mem_filter.mpr ⟨hc, ?_⟩))
    rw [hspace]
    rfl

/-- Digits in pairs denote bytes. -/
theorem exists_denotes (hdigits : ∀ c ∈ digits, (hexValue c).isSome = true)
    (heven : Even digits.length) : ∃ bytes, Denotes digits bytes := by
  obtain ⟨n, hn⟩ := heven
  induction n generalizing digits with
  | zero =>
    have hnil : digits = [] := List.length_eq_zero_iff.mp hn
    exact ⟨[], by rw [hnil]; rfl⟩
  | succ n ih =>
    match digits, hn with
    | [_], hn =>
      rw [List.length_singleton] at hn
      omega
    | c :: c' :: rest, hn =>
      obtain ⟨high, hhigh⟩ := Option.isSome_iff_exists.mp (hdigits c (by simp))
      obtain ⟨low, hlow⟩ := Option.isSome_iff_exists.mp (hdigits c' (by simp))
      have hlength : rest.length = n + n := by
        simp only [List.length_cons] at hn
        omega
      obtain ⟨bytes, hbytes⟩ := ih (fun c hc => hdigits c (by simp [hc])) hlength
      have hbyte := (byte_eq_iff (b := 16 * high + low) (hexValue_lt hhigh)
        (hexValue_lt hlow)).mp rfl
      refine ⟨(16 * high + low) :: bytes, ?_⟩
      unfold Denotes at hbytes ⊢
      rw [List.map_cons, List.map_cons, hhigh, hlow, hbytes, halves_cons, ← hbyte.1, ← hbyte.2]

/-! ## The prefix -/

/-- No hex digit is an `x`, so the digits cannot be mistaken for a prefix. -/
theorem stripOx_of_digits (h : ∀ c ∈ s, (hexValue c).isSome = true) : stripOx s = s := by
  unfold stripOx
  split
  next rest =>
    have hx := h 'x' (by simp)
    cases hx
  next => rfl

theorem stripOx_of_spells (h : Spells text digits)
    (hdigits : ∀ c ∈ digits, (hexValue c).isSome = true) : stripOx text.toList = digits := by
  cases h with
  | inl h => rw [h, stripOx_of_digits hdigits]
  | inr h => rw [h, stripOx]

theorem spells_stripOx (text : String) : Spells text (stripOx text.toList) := by
  unfold Spells stripOx
  split
  next heq => exact Or.inr heq
  next => exact Or.inl rfl

/-! ## What is read -/

/-- The three outcomes of the checks. -/
theorem deserialize_cases (text : String) :
    (∃ e, deserialize text = .error e) ∨
      ∃ raw, byteLength (stripOx text.toList) = 40 ∧ fromHex (stripOx text.toList) = .ok raw ∧
        deserialize text = copyFromSlice raw := by
  unfold deserialize
  dsimp only
  by_cases hlength : byteLength (stripOx text.toList) = 40
  · rw [if_neg (not_not.mpr hlength)]
    cases hraw : fromHex (stripOx text.toList) with
    | error e => exact Or.inl ⟨_, rfl⟩
    | ok raw => exact Or.inr ⟨raw, hlength, rfl, rfl⟩
  · rw [if_pos hlength]
    exact Or.inl ⟨_, rfl⟩

theorem deserialize_of_fromHex (hlength : byteLength (stripOx text.toList) = 40)
    (hraw : fromHex (stripOx text.toList) = .ok raw) : deserialize text = copyFromSlice raw := by
  unfold deserialize
  dsimp only
  rw [if_neg (not_not.mpr hlength), hraw]

theorem copyFromSlice_eq_address : copyFromSlice raw = .address a ↔ raw = a.toList := by
  unfold copyFromSlice
  split
  next h =>
    rw [Deserialized.address.injEq, ← Vector.toList_inj]
    rfl
  next h =>
    refine iff_of_false nofun fun hraw => h ?_
    rw [hraw, Vector.length_toList]

theorem copyFromSlice_eq_panic : copyFromSlice raw = .panic ↔ raw.length ≠ 20 := by
  unfold copyFromSlice
  split
  next h => exact iff_of_false nofun (not_not.mpr h)
  next h => exact iff_of_true rfl h

/-- An address is accepted from the texts that spell it. -/
theorem deserialize_address_iff :
    deserialize text = .address a ↔ ∃ digits, Spells text digits ∧ Denotes digits a.toList := by
  constructor
  · intro h
    rcases deserialize_cases text with ⟨e, he⟩ | ⟨raw, hlength, hraw, hcopy⟩
    · rw [he] at h
      cases h
    · rw [hcopy, copyFromSlice_eq_address] at h
      subst h
      -- forty digits leave no room for whitespace
      have hdigits := length_fromHex hraw
      rw [Vector.length_toList] at hdigits
      have hchars := byteLength_of_hex (chars_of_fromHex hraw)
      have hall : hexDigits (stripOx text.toList) = stripOx text.toList :=
        hexDigits_of_length (by omega)
      refine ⟨_, spells_stripOx text, ?_⟩
      rw [← hall]
      exact fromHex_ok_iff.mp hraw
  · rintro ⟨digits, hspells, hdenotes⟩
    have hs := stripOx_of_spells hspells hdenotes.isSome
    have hlength : byteLength (stripOx text.toList) = 40 := by
      rw [hs, byteLength_of_hex fun c hc => Or.inl (hdenotes.isSome c hc), hdenotes.length,
        Vector.length_toList]
    have hraw : fromHex (stripOx text.toList) = .ok a.toList := by
      rw [hs, fromHex_ok_iff, hexDigits_of_hexValue hdenotes.isSome]
      exact hdenotes
    rw [deserialize_of_fromHex hlength hraw, copyFromSlice_eq_address]

theorem exists_address_iff : (∃ a, deserialize text = .address a) ↔ IsText text := by
  constructor
  · rintro ⟨a, h⟩
    obtain ⟨digits, hspells, hdenotes⟩ := deserialize_address_iff.mp h
    refine ⟨digits, hspells, ?_, hdenotes.isSome⟩
    rw [hdenotes.length, Vector.length_toList]
  · rintro ⟨digits, hspells, hlength, hdigits⟩
    obtain ⟨bytes, hbytes⟩ := exists_denotes hdigits ⟨20, hlength⟩
    have htwenty : bytes.length = 20 := by
      have htwice := hbytes.length
      omega
    refine ⟨⟨bytes.toArray, by simpa using htwenty⟩, ?_⟩
    exact deserialize_address_iff.mpr ⟨digits, hspells, hbytes⟩

/-- The copy panics on the padded texts, and on no others. -/
theorem deserialize_panic_iff : deserialize text = .panic ↔ Padded text := by
  constructor
  · intro h
    rcases deserialize_cases text with ⟨e, he⟩ | ⟨raw, hlength, hraw, hcopy⟩
    · rw [he] at h
      cases h
    · rw [hcopy, copyFromSlice_eq_panic] at h
      have hchars := chars_of_fromHex hraw
      have hdigits := length_fromHex hraw
      rw [byteLength_of_hex hchars] at hlength
      refine ⟨hlength, hchars, ?_, ⟨raw.length, by omega⟩⟩
      by_contra hnone
      have hall := length_hexDigits_iff.mpr hnone
      omega
  · intro h
    have hlength : byteLength (stripOx text.toList) = 40 := by
      rw [byteLength_of_hex h.chars, h.length]
    have hdigits : ∀ c ∈ hexDigits (stripOx text.toList), (hexValue c).isSome = true := by
      intro c hc
      obtain ⟨hmem, hspace⟩ := List.mem_filter.mp hc
      refine (h.chars c hmem).resolve_right fun hspace' => ?_
      rw [hspace'] at hspace
      cases hspace
    obtain ⟨raw, hraw⟩ := exists_denotes hdigits h.even
    rw [deserialize_of_fromHex hlength (fromHex_ok_iff.mpr hraw), copyFromSlice_eq_panic]
    intro htwenty
    have hall : (hexDigits (stripOx text.toList)).length = (stripOx text.toList).length := by
      rw [hraw.length, htwenty, h.length]
    exact length_hexDigits_iff.mp hall h.space

theorem deserialize_serialize (a : EthereumAddress) : deserialize (serialize a) = .address a := by
  refine deserialize_address_iff.mpr ⟨toHex a.toList, Or.inr ?_, denotes_toHex a.toList⟩
  unfold serialize
  rw [String.toList_append, String.toList_ofList, String.toList_ofList]
  rfl

/-- The text of every address is read back, and every text is read as meant exactly when it is
not padded with whitespace to the length of an address. -/
theorem address_text_iff (a : EthereumAddress) (text : String) :
    deserialize (serialize a) = .address a ∧ (ReadAsMeant text ↔ ¬ Padded text) := by
  refine ⟨deserialize_serialize a, ?_⟩
  rw [← deserialize_panic_iff]
  constructor
  · intro h
    exact h.safe
  · intro hsafe
    refine ⟨hsafe, exists_address_iff, fun a => deserialize_address_iff.mp, fun hnot => ?_⟩
    cases h : deserialize text with
    | address a => exact absurd (exists_address_iff.mp ⟨a, h⟩) hnot
    | error e => exact ⟨e, rfl⟩
    | panic => exact absurd h hsafe

/-- Nineteen bytes and two spaces. -/
theorem padded_text_panics :
    deserialize "0x0123456789abcdef0123456789abcdef012345  " = .panic ∧
      ¬ ReadAsMeant "0x0123456789abcdef0123456789abcdef012345  " := by
  have hpanic : deserialize "0x0123456789abcdef0123456789abcdef012345  " = .panic := by
    decide +kernel
  exact ⟨hpanic, fun h => h.safe hpanic⟩

end XXChain.Claims
