import XXChain.Claims.Message
import XXChain.Claims.Preclaims

/-!
# XXChain — whom a claim is paid to

A claim belongs to the owner of an Ethereum address, who says where it goes: by signing a message
that names the account, or as the account that was named in advance. Here the owner only ever names
one account, `dest`, and nobody else can sign for him.

* **`Fate`** — what may become of a claim: it is held, or paid once to `dest`, and then it is gone;
* **`dispatch_settles`** — no call of anybody has another outcome, if it does not mint or move the
  claim.
-/

namespace XXChain.Claims

open StorageMap

variable {A σ H : Type} [DecidableEq A] {T : Config A σ H} {s s₁ s' : State A σ H}
  {origin : Origin A} {call : Call A} {owner signer : EthereumAddress} {dest : A} {fixed : Prop}
  {signed : List UInt8 → Prop}

/-! ## The fate of a claim -/

/-- A claim before, the payments of it in between, and the claim after. Its amount only changes if
it is not `fixed`. -/
inductive Fate (dest : A) (fixed : Prop) : Option Nat → List (A × Nat) → Option Nat → Prop where
  | gone : Fate dest fixed none [] none
  | held (v v' : Nat) (hfixed : fixed → v' = v) : Fate dest fixed (some v) [] (some v')
  | paid (v amount : Nat) (hfixed : fixed → amount = v) :
      Fate dest fixed (some v) [(dest, amount)] none

omit [DecidableEq A] in
theorem Fate.refl (claim : Option Nat) : Fate dest fixed claim [] claim := by
  cases claim with
  | none => exact .gone
  | some v => exact .held v v fun _ => rfl

omit [DecidableEq A] in
/-- One after the other, there is one payment at most. -/
theorem Fate.trans {before middle after : Option Nat} {payments payments' : List (A × Nat)}
    (h : Fate dest fixed before payments middle) (h' : Fate dest fixed middle payments' after) :
    Fate dest fixed before (payments ++ payments') after := by
  cases h with
  | gone =>
    cases h'
    exact .gone
  | paid v amount hfixed =>
    cases h'
    exact .paid v amount hfixed
  | held v v' hfixed =>
    cases h' with
    | held _ v'' hfixed' => exact .held v v'' fun h => (hfixed' h).trans (hfixed h)
    | paid _ amount hfixed' => exact .paid v amount fun h => (hfixed' h).trans (hfixed h)

/-- The payments of the claim of an address, by their events. -/
def paymentsOf (owner : EthereumAddress) (events : List (Event A)) : List (A × Nat) :=
  events.filterMap fun
    | .claimed who address amount _ => if address = owner then some (who, amount) else none

omit [DecidableEq A] in
theorem paymentsOf_append (events events' : List (Event A)) :
    paymentsOf owner (events ++ events') = paymentsOf owner events ++ paymentsOf owner events' :=
  List.filterMap_append

/-- The claim meets a fate between two states, and no other account is named for it in advance. -/
def Settles (owner : EthereumAddress) (dest : A) (fixed : Prop) (s s' : State A σ H) : Prop :=
  (∀ who, s.preclaims.lookup who = some owner → who = dest) →
    (∀ who, s'.preclaims.lookup who = some owner → who = dest) ∧
      ∃ new, s'.events = s.events ++ new ∧
        Fate dest fixed (s.claims.lookup owner) (paymentsOf owner new) (s'.claims.lookup owner)

theorem Settles.trans (h : Settles owner dest fixed s s₁) (h' : Settles owner dest fixed s₁ s') :
    Settles owner dest fixed s s' := by
  intro hnamed
  obtain ⟨hnamed₁, new, hnew, hfate⟩ := h hnamed
  obtain ⟨hnamed', new', hnew', hfate'⟩ := h' hnamed₁
  refine ⟨hnamed', new ++ new', ?_, ?_⟩
  · rw [hnew', hnew, List.append_assoc]
  · rw [paymentsOf_append]
    exact hfate.trans hfate'

/-- Whatever does not touch the claim, nor any event or preclaim. -/
theorem Settles.of_same (hclaim : s'.claims.lookup owner = s.claims.lookup owner)
    (hpreclaims : s'.preclaims = s.preclaims) (hevents : s'.events = s.events) :
    Settles owner dest fixed s s' := by
  intro hnamed
  refine ⟨hpreclaims ▸ hnamed, [], ?_, ?_⟩
  · rw [hevents, List.append_nil]
  · rw [hclaim]
    exact Fate.refl _

/-! ## Signatures -/

/-- The owner of the address signed what is recovered to it. -/
def Call.Unforged (T : Config A σ H) (owner : EthereumAddress) (signed : List UInt8 → Prop) :
    Call A → Prop
  | .claim dest signature =>
    ethRecover T signature (toAsciiHex (T.encode dest)) [] = some owner →
      signed (ethereumSignableMessage T (toAsciiHex (T.encode dest)) [])
  | .claimAttest dest signature statement =>
    ethRecover T signature (toAsciiHex (T.encode dest)) statement = some owner →
      signed (ethereumSignableMessage T (toAsciiHex (T.encode dest)) statement)
  | _ => True

instance (T : Config A σ H) (owner : EthereumAddress) (signed : List UInt8 → Prop)
    [DecidablePred signed] (call : Call A) : Decidable (call.Unforged T owner signed) := by
  unfold Call.Unforged
  split <;> infer_instance

/-- The call mints no claim for the address, and moves none from or to it. -/
def Call.spares (owner : EthereumAddress) : Call A → Bool
  | .mintClaim who _ _ _ => decide (who ≠ owner)
  | .moveClaim old new _ => decide (old ≠ owner ∧ new ≠ owner)
  | _ => true

/-- All that is signed names the account, with some statement. -/
def Names (T : Config A σ H) (dest : A) (signed : List UInt8 → Prop) : Prop :=
  ∀ message, signed message →
    ∃ statement, message = ethereumSignableMessage T (toAsciiHex (T.encode dest)) statement

/-- Accounts are encoded in one length, and only `dest` as itself. -/
structure Config.Encodes (T : Config A σ H) (dest : A) : Prop where
  length : ∀ who, (T.encode who).length = (T.encode dest).length
  injective : ∀ who, T.encode who = T.encode dest → who = dest

omit [DecidableEq A] in
/-- A message names one account. -/
theorem Names.eq_of_signed (hnames : Names T dest signed) (hencode : T.Encodes dest) {who : A}
    {statement : List UInt8}
    (h : signed (ethereumSignableMessage T (toAsciiHex (T.encode who)) statement)) :
    who = dest := by
  obtain ⟨other, hmessage⟩ := hnames _ h
  have hlength : (toAsciiHex (T.encode who)).length = (toAsciiHex (T.encode dest)).length := by
    rw [length_toAsciiHex, length_toAsciiHex, hencode.length who]
  have hhex := (ethereumSignableMessage_inj hlength hmessage).1
  exact hencode.injective who (toAsciiHex_inj hhex)

/-! ## The calls -/

/-- A call that is about the claim of the owner names the account. -/
theorem Addressed.names (hencode : T.Encodes dest) (hnames : Names T dest signed)
    (hunforged : call.Unforged T owner signed)
    (hnamed : ∀ who, s.preclaims.lookup who = some owner → who = dest) {who : A}
    (h : Addressed T s owner who (origin, call)) : who = dest := by
  cases call with
  | claim account signature =>
    obtain ⟨_, rfl, hrecover, _⟩ := h
    exact hnames.eq_of_signed hencode (hunforged hrecover)
  | claimAttest account signature statement =>
    obtain ⟨_, rfl, hrecover, _⟩ := h
    exact hnames.eq_of_signed hencode (hunforged hrecover)
  | attest statement =>
    obtain ⟨_, hpreclaim, _⟩ := h
    exact hnamed who hpreclaim
  | mintClaim => exact h.elim
  | moveClaim => exact h.elim

/-- An entry moves between two other addresses. -/
theorem lookup_moveEntry_of_ne {V : Type} {old new : EthereumAddress}
    (hold : old ≠ owner) (hnew : new ≠ owner) (m : StorageMap EthereumAddress V) :
    (moveEntry old new m).lookup owner = m.lookup owner := by
  unfold moveEntry
  split
  · rw [Finmap.lookup_insert_of_ne _ (Ne.symm hnew), Finmap.lookup_erase_ne (Ne.symm hold)]
  · rfl

/-- So does the preclaim of an account. -/
theorem movePreclaim_names {old new : EthereumAddress} (hnew : new ≠ owner)
    (preclaim : Option A) {m : StorageMap A EthereumAddress}
    (hnamed : ∀ who, m.lookup who = some owner → who = dest) (who : A)
    (h : (movePreclaim old new preclaim m).lookup who = some owner) : who = dest := by
  rw [lookup_movePreclaim] at h
  split at h
  · exact absurd (Option.some.inj h) hnew
  · exact hnamed who h

/-- A payment is of the claim of its signer. -/
theorem dispatch_pays_settles (hencode : T.Encodes dest) (hnames : Names T dest signed)
    (hunforged : call.Unforged T owner signed) (hpays : call.pays = true)
    (h : dispatch T origin call s = .ok s') : Settles owner dest fixed s s' := by
  intro hnamed
  obtain ⟨signer, who, haddressed, s₁, hprocess, hs'⟩ := dispatch_pays hpays h
  obtain ⟨v, hclaim, _, _, hs₁⟩ := processClaim_eq_ok.mp hprocess
  have hpreclaims := dispatch_preclaims hpays h
  have hclaims : s'.claims = s.claims.erase signer := by
    rw [hs', hs₁]
    rfl
  constructor
  · intro account haccount
    rw [hpreclaims] at haccount
    split at haccount
    · cases haccount
    · exact hnamed account haccount
  · refine ⟨[.claimed who signer v ((s.rewards.lookup signer).getD 0)], by rw [hs', hs₁]; rfl, ?_⟩
    rw [hclaims]
    by_cases hsigner : signer = owner
    · subst hsigner
      have hwho : who = dest := haddressed.names hencode hnames hunforged hnamed
      have hpayments : paymentsOf signer
          [.claimed who signer v ((s.rewards.lookup signer).getD 0)] = [(dest, v)] := by
        simp [paymentsOf, hwho]
      rw [hclaim, Finmap.lookup_erase, hpayments]
      exact .paid v v fun _ => rfl
    · have hpayments : paymentsOf owner
          [.claimed who signer v ((s.rewards.lookup signer).getD 0)] = [] := by
        simp [paymentsOf, hsigner]
      rw [Finmap.lookup_erase_ne (Ne.symm hsigner), hpayments]
      exact Fate.refl _

variable (fixed) in
/-- **One call.** Whoever submits it, the claim of the owner is held, or paid to the account that
the owner names. -/
theorem dispatch_settles (hencode : T.Encodes dest) (hnames : Names T dest signed)
    (hunforged : call.Unforged T owner signed) (hspares : call.spares owner = true)
    (h : dispatch T origin call s = .ok s') : Settles owner dest fixed s s' := by
  cases call with
  | claim => exact dispatch_pays_settles hencode hnames hunforged rfl h
  | claimAttest => exact dispatch_pays_settles hencode hnames hunforged rfl h
  | attest => exact dispatch_pays_settles hencode hnames hunforged rfl h
  | mintClaim who value vestingSchedules statement =>
    have hne : who ≠ owner := of_decide_eq_true hspares
    simp only [dispatch, mintClaim, bind_eq_ok] at h
    obtain ⟨_, _, hs'⟩ := h
    cases hs'
    exact .of_same (Finmap.lookup_insert_of_ne _ (Ne.symm hne)) rfl rfl
  | moveClaim old new maybePreclaim =>
    obtain ⟨hold, hnew⟩ : old ≠ owner ∧ new ≠ owner := of_decide_eq_true hspares
    simp only [dispatch, moveClaim, bind_eq_ok] at h
    obtain ⟨_, _, hs'⟩ := h
    cases hs'
    intro hnamed
    refine ⟨movePreclaim_names hnew maybePreclaim hnamed, [], (List.append_nil _).symm, ?_⟩
    show Fate dest fixed _ [] ((moveEntry old new s.claims).lookup owner)
    rw [lookup_moveEntry_of_ne hold hnew]
    exact Fate.refl _

end XXChain.Claims
