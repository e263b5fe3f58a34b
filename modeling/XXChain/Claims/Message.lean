import Mathlib.Data.Nat.Digits.Lemmas
import XXChain.Claims.Model

/-!
# XXChain — what a signed claim says

The message that is signed has no separators: the decimal length of what follows it, the
prefix, the account in hex and a statement of any length. The length comes first and is longer
the more follows it, so it cannot be mistaken for a part of the rest.

* **`decimalRev_eq`**, **`reverse_decimalRev`** — the digit loop computes decimal digits;
* **`toAsciiHex_inj`** — the hex digits determine the account;
* **`ethereumSignableMessage_inj`** — the message determines the account and the statement;
* **`signable_message_unambiguous`** — and so a signature is for one of each.
-/

namespace XXChain.Claims

variable {A σ H R : Type} {T : Config A σ H} {what what' extra extra' acct acct' : List UInt8}

/-! ## The digit loop -/

/-- The loop computes the digits of the length in base ten, the last one first. -/
theorem decimalRev_eq (l : Nat) :
    decimalRev l = (Nat.digits 10 l).map fun d => 48 + UInt8.ofNat d := by
  induction l using Nat.strong_induction_on with
  | _ l ih =>
    rw [decimalRev]
    by_cases hl : l = 0
    · rw [dif_pos hl, hl, Nat.digits_zero, List.map_nil]
    · have hpos := Nat.pos_of_ne_zero hl
      have hless : l / 10 < l := Nat.div_lt_self hpos (by decide)
      rw [dif_neg hl, Nat.digits_def' (by decide) hpos, List.map_cons, ih (l / 10) hless]

/-- The longer the rest of the message, the longer its length is written. -/
theorem length_decimalRev_le {l l' : Nat} (h : l ≤ l') :
    (decimalRev l).length ≤ (decimalRev l').length := by
  rw [decimalRev_eq, decimalRev_eq, List.length_map, List.length_map]
  exact Nat.le_length_digits_le 10 l l' h

theorem ascii_digitChar {d : Nat} (h : d < 10) :
    UInt8.ofNat (Nat.digitChar d).toNat = 48 + UInt8.ofNat d := by
  rw [Nat.toNat_digitChar_of_lt_ten h, UInt8.ofNat_add]
  rfl

/-- Put the right way round, the digits are how a length that is not zero is printed. -/
theorem reverse_decimalRev {l : Nat} (h : l ≠ 0) : (decimalRev l).reverse = ascii l.repr := by
  have hprinted : ascii l.repr =
      (Nat.toDigits 10 l).map fun c => UInt8.ofNat c.toNat := by
    unfold ascii
    rw [Nat.toList_repr]
  rw [hprinted]
  clear hprinted
  induction l using Nat.strong_induction_on with
  | _ l ih =>
    rw [decimalRev, dif_neg h, List.reverse_cons, Nat.toDigits_eq_if (by decide)]
    by_cases hl : l < 10
    · have hdiv : l / 10 = 0 := Nat.div_eq_of_lt hl
      have hmod : l % 10 = l := Nat.mod_eq_of_lt hl
      rw [if_pos hl, hdiv, hmod, decimalRev, dif_pos rfl, List.map_cons, ascii_digitChar hl]
      rfl
    · have hless : l / 10 < l := Nat.div_lt_self (Nat.pos_of_ne_zero h) (by decide)
      rw [if_neg hl, ih (l / 10) hless (by omega), List.map_append, List.map_cons,
        ascii_digitChar (Nat.mod_lt l (by decide))]
      rfl

/-! ## The hex account -/

/-- A hex digit, as the source writes it. -/
def nibble (n : UInt8) : UInt8 :=
  if n < 10 then 48 + n else 97 - 10 + n

theorem toAsciiHex_cons (b : UInt8) (data : List UInt8) :
    toAsciiHex (b :: data) = nibble (b / 16) :: nibble (b % 16) :: toAsciiHex data := rfl

theorem toNat_nibble {n : UInt8} (h : n.toNat < 16) :
    (nibble n).toNat = if n.toNat < 10 then 48 + n.toNat else 87 + n.toNat := by
  unfold nibble
  by_cases hn : n < 10
  · have hsmall : n.toNat < 10 := hn
    rw [if_pos hn, if_pos hsmall, UInt8.toNat_add]
    show (48 + n.toNat) % 256 = 48 + n.toNat
    omega
  · have hlarge : ¬ n.toNat < 10 := hn
    rw [if_neg hn, if_neg hlarge, UInt8.toNat_add]
    show (87 + n.toNat) % 256 = 87 + n.toNat
    omega

theorem nibble_inj {n m : UInt8} (hn : n.toNat < 16) (hm : m.toNat < 16)
    (h : nibble n = nibble m) : n.toNat = m.toNat := by
  have hvalues := congrArg UInt8.toNat h
  rw [toNat_nibble hn, toNat_nibble hm] at hvalues
  split_ifs at hvalues <;> omega

/-- A byte is determined by its two hex digits. -/
theorem hexByte_inj {b c : UInt8} (hhigh : nibble (b / 16) = nibble (c / 16))
    (hlow : nibble (b % 16) = nibble (c % 16)) : b = c := by
  have hb : b.toNat < 256 := b.toNat_lt
  have hc : c.toNat < 256 := c.toNat_lt
  have hdiv : ∀ x : UInt8, (x / 16).toNat = x.toNat / 16 := fun x => UInt8.toNat_div x 16
  have hmod : ∀ x : UInt8, (x % 16).toNat = x.toNat % 16 := fun x => UInt8.toNat_mod x 16
  have hhigh' := nibble_inj (by rw [hdiv]; omega) (by rw [hdiv]; omega) hhigh
  have hlow' := nibble_inj (by rw [hmod]; omega) (by rw [hmod]; omega) hlow
  rw [hdiv, hdiv] at hhigh'
  rw [hmod, hmod] at hlow'
  apply UInt8.toNat_inj.mp
  omega

theorem length_toAsciiHex (data : List UInt8) : (toAsciiHex data).length = 2 * data.length := by
  induction data with
  | nil => rfl
  | cons b data ih =>
    rw [toAsciiHex_cons, List.length_cons, List.length_cons, ih, List.length_cons]
    omega

theorem toAsciiHex_inj (h : toAsciiHex acct = toAsciiHex acct') : acct = acct' := by
  induction acct generalizing acct' with
  | nil =>
    cases acct' with
    | nil => rfl
    | cons c acct' => cases h
  | cons b acct ih =>
    cases acct' with
    | nil => cases h
    | cons c acct' =>
      rw [toAsciiHex_cons, toAsciiHex_cons, List.cons.injEq, List.cons.injEq] at h
      obtain ⟨hhigh, hlow, hrest⟩ := h
      rw [hexByte_inj hhigh hlow, ih hrest]

/-! ## The message -/

/-- The length that the message states. -/
def statedLength (T : Config A σ H) (what extra : List UInt8) : Nat :=
  T.claimPrefix.length + what.length + extra.length

theorem ethereumSignableMessage_eq (T : Config A σ H) (what extra : List UInt8) :
    ethereumSignableMessage T what extra = (25 :: ascii "Ethereum Signed Message:\n") ++
      ((decimalRev (statedLength T what extra)).reverse ++ (T.claimPrefix ++ (what ++ extra))) := by
  simp only [ethereumSignableMessage, statedLength, List.append_assoc]

/-- Messages with accounts of one length say the same only if they say it of the same account
and statement. -/
theorem ethereumSignableMessage_inj (hlen : what.length = what'.length)
    (h : ethereumSignableMessage T what extra = ethereumSignableMessage T what' extra') :
    what = what' ∧ extra = extra' := by
  rw [ethereumSignableMessage_eq, ethereumSignableMessage_eq] at h
  have hrest := List.append_cancel_left h
  -- a longer rest would have a longer counter too, and the whole would not fit
  have htotal := congrArg List.length hrest
  simp only [List.length_append, List.length_reverse] at htotal
  have hstated : statedLength T what extra = statedLength T what' extra' := by
    rcases Nat.lt_trichotomy (statedLength T what extra) (statedLength T what' extra') with
      hlt | heq | hgt
    · have hdigits := length_decimalRev_le hlt.le
      unfold statedLength at hlt
      omega
    · exact heq
    · have hdigits := length_decimalRev_le hgt.le
      unfold statedLength at hgt
      omega
  rw [hstated] at hrest
  exact List.append_inj (List.append_cancel_left (List.append_cancel_left hrest)) hlen

/-! ## The signature -/

/-- Two messages that a signature cannot tell apart, though they differ: of their digests, `reduce`
is what the signature scheme reads. -/
structure DigestCollision (T : Config A σ H) (reduce : Vector UInt8 32 → R)
    (message message' : List UInt8) : Prop where
  ne : message ≠ message'
  same : reduce (T.keccak256 message) = reduce (T.keccak256 message')

/-- Two public keys of one address. -/
structure AddressCollision (T : Config A σ H) (key key' : List UInt8) : Prop where
  ne : key ≠ key'
  same : (T.keccak256 key).drop 12 = (T.keccak256 key').drop 12

theorem ethRecover_eq_some {signature : EcdsaSignature} {signer : EthereumAddress}
    (h : ethRecover T signature what extra = some signer) :
    ∃ key, T.secp256k1EcdsaRecover signature
        (T.keccak256 (ethereumSignableMessage T what extra)) = some key ∧
      (T.keccak256 key).drop 12 = signer :=
  Option.map_eq_some_iff.mp h

/-- A signature that is one address's for two messages shows a collision of the hash. -/
theorem collision_of_two_messages (reduce : Vector UInt8 32 → R)
    (hrecover : ∀ signature digest digest' key,
      T.secp256k1EcdsaRecover signature digest = some key →
      T.secp256k1EcdsaRecover signature digest' = some key → reduce digest = reduce digest')
    (hne : ethereumSignableMessage T what extra ≠ ethereumSignableMessage T what' extra')
    {signature : EcdsaSignature} {signer : EthereumAddress}
    (h : ethRecover T signature what extra = some signer)
    (h' : ethRecover T signature what' extra' = some signer) :
    DigestCollision T reduce (ethereumSignableMessage T what extra)
        (ethereumSignableMessage T what' extra') ∨
      ∃ key key', T.secp256k1EcdsaRecover signature
          (T.keccak256 (ethereumSignableMessage T what extra)) = some key ∧
        T.secp256k1EcdsaRecover signature
          (T.keccak256 (ethereumSignableMessage T what' extra')) = some key' ∧
        AddressCollision T key key' := by
  obtain ⟨key, hkey, haddress⟩ := ethRecover_eq_some h
  obtain ⟨key', hkey', haddress'⟩ := ethRecover_eq_some h'
  by_cases hsame : key = key'
  · rw [← hsame] at hkey'
    exact Or.inl ⟨hne, hrecover _ _ _ _ hkey hkey'⟩
  · exact Or.inr ⟨key, key', hkey, hkey', hsame, haddress.trans haddress'.symm⟩

/-- For every prefix, every two accounts of one length and every two statements: the message
determines both; a signature of one address for two of them shows a collision of the hash; and
the length the message states is in decimal. A length of zero, which takes an empty account,
has no digits. -/
theorem signable_message_unambiguous (T : Config A σ H) (reduce : Vector UInt8 32 → R)
    (hrecover : ∀ signature digest digest' key,
      T.secp256k1EcdsaRecover signature digest = some key →
      T.secp256k1EcdsaRecover signature digest' = some key → reduce digest = reduce digest')
    (acct acct' stmt stmt' : List UInt8) (hlen : acct.length = acct'.length) :
    (ethereumSignableMessage T (toAsciiHex acct) stmt =
        ethereumSignableMessage T (toAsciiHex acct') stmt' → acct = acct' ∧ stmt = stmt') ∧
    (∀ signature signer, ethRecover T signature (toAsciiHex acct) stmt = some signer →
      ethRecover T signature (toAsciiHex acct') stmt' = some signer →
      (acct = acct' ∧ stmt = stmt') ∨
        DigestCollision T reduce (ethereumSignableMessage T (toAsciiHex acct) stmt)
          (ethereumSignableMessage T (toAsciiHex acct') stmt') ∨
        ∃ key key', T.secp256k1EcdsaRecover signature
            (T.keccak256 (ethereumSignableMessage T (toAsciiHex acct) stmt)) = some key ∧
          T.secp256k1EcdsaRecover signature
            (T.keccak256 (ethereumSignableMessage T (toAsciiHex acct') stmt')) = some key' ∧
          AddressCollision T key key') ∧
    ∃ stated, ethereumSignableMessage T (toAsciiHex acct) stmt =
        (25 :: ascii "Ethereum Signed Message:\n") ++
          (stated ++ (T.claimPrefix ++ (toAsciiHex acct ++ stmt))) ∧
      stated = ((Nat.digits 10 (statedLength T (toAsciiHex acct) stmt)).map
        fun d => 48 + UInt8.ofNat d).reverse ∧
      (statedLength T (toAsciiHex acct) stmt ≠ 0 →
        stated = ascii (statedLength T (toAsciiHex acct) stmt).repr) := by
  have hhex : (toAsciiHex acct).length = (toAsciiHex acct').length := by
    rw [length_toAsciiHex, length_toAsciiHex, hlen]
  have hinj : ethereumSignableMessage T (toAsciiHex acct) stmt =
      ethereumSignableMessage T (toAsciiHex acct') stmt' → acct = acct' ∧ stmt = stmt' := by
    intro h
    obtain ⟨hacct, hstmt⟩ := ethereumSignableMessage_inj hhex h
    exact ⟨toAsciiHex_inj hacct, hstmt⟩
  refine ⟨hinj, fun signature signer h h' => ?_,
    _, ethereumSignableMessage_eq T _ _, by rw [decimalRev_eq], fun h => reverse_decimalRev h⟩
  by_cases hsame : acct = acct' ∧ stmt = stmt'
  · exact Or.inl hsame
  · have hne := fun heq => hsame (hinj heq)
    exact Or.inr (collision_of_two_messages reduce hrecover hne h h')

/-- A mock of the signature scheme in which the key is the digest itself. -/
def mockScheme : Config Nat (VestedLedger Nat) (List (Nat × Nat × Nat)) :=
  { mockRuntime with secp256k1EcdsaRecover := fun _ digest => some digest.toList }

theorem signable_message_unambiguous_mock :
    ethereumSignableMessage mockScheme (toAsciiHex (List.replicate 32 7)) [] ≠
      ethereumSignableMessage mockScheme (toAsciiHex (List.replicate 32 7))
        StatementKind.saft.toText := by
  intro h
  have hrecover : ∀ (signature : EcdsaSignature) (digest digest' : Vector UInt8 32)
      (key : List UInt8), mockScheme.secp256k1EcdsaRecover signature digest = some key →
      mockScheme.secp256k1EcdsaRecover signature digest' = some key →
      digest = digest' := by
    intro _ digest digest' key h h'
    exact Vector.toList_inj.mp (Option.some.inj (h.trans h'.symm))
  have hsame := (signable_message_unambiguous mockScheme (fun digest => digest) hrecover
    (List.replicate 32 7) (List.replicate 32 7) [] StatementKind.saft.toText rfl).1 h
  exact absurd hsame.2 (by decide)

end XXChain.Claims
