import XXChain.Claims.Validation

/-!
# XXChain — preclaims that outlive their claim

`PrevalidateAttests` looks an attest up in `Preclaims` and `Signing`, and `attest` then also in
`Claims`. The maps get out of step when a claim goes away and leaves an account that names it:
it is claimed by signature or by another account, or moved without that account.

* **`attestsSound_iff`** — the accepted attests do not fail for lack of a claim exactly when
  every preclaim names one;
* **`attests_sound_iff`** — over a run, in every state, exactly when no step orphans a
  preclaim.
-/

namespace XXChain.Claims

open StorageMap

variable {A σ H : Type} [DecidableEq A] {T : Config A σ H} {s : State A σ H}
  {old new : EthereumAddress}

/-! ## Accepted attests -/

/-- An attest that the extension accepts succeeds, or fails for a vesting conflict only. -/
def AttestsSound (T : Config A σ H) (s : State A σ H) : Prop :=
  ∀ who statement valid, prevalidateAttests who (.attest statement) s = .ok valid →
    (∃ s', dispatch T (.signed who) (.attest statement) s = .ok s') ∨
      dispatch T (.signed who) (.attest statement) s = .error (.module .vestedBalanceExists)

/-- Every preclaim names an address with a claim. -/
def NoOrphans (s : State A σ H) : Prop :=
  ∀ who signer, s.preclaims.lookup who = some signer → (s.claims.lookup signer).isSome

/-- The extension and the dispatchable agree on the preclaim and the statement. -/
theorem prevalidateAttest_eq_ok {who : A} {statement : List UInt8} :
    prevalidateAttest who statement s = .ok () ↔
      ∃ signer, s.preclaims.lookup who = some signer ∧
        ensureStatement signer statement s = .ok () := by
  simp only [prevalidateAttest, bind_eq_ok, okOr_eq_ok, ensureStatement]
  apply exists_congr
  intro signer
  apply and_congr_right
  intro _
  cases s.signing.lookup signer with
  | none => exact ⟨fun _ => rfl, fun _ => rfl⟩
  | some kind =>
    show ensure _ _ = .ok () ↔ ensure _ _ = .ok ()
    rw [ensure_eq_ok, ensure_eq_ok, decide_eq_true_eq, decide_eq_true_eq]
    exact eq_comm

theorem prevalidateAttests_ok_iff {who : A} {statement : List UInt8} :
    (∃ valid, prevalidateAttests who (.attest statement) s = .ok valid) ↔
      ∃ signer, s.preclaims.lookup who = some signer ∧
        ensureStatement signer statement s = .ok () := by
  rw [← prevalidateAttest_eq_ok]
  simp only [prevalidateAttests, bind_eq_ok]
  constructor
  · rintro ⟨valid, _, hcheck, _⟩
    exact hcheck
  · intro hcheck
    exact ⟨_, (), hcheck, rfl⟩

omit [DecidableEq A] in
/-- Some statement is always the right one. -/
theorem exists_statement (signer : EthereumAddress) (s : State A σ H) :
    ∃ statement, ensureStatement signer statement s = .ok () := by
  unfold ensureStatement
  cases s.signing.lookup signer with
  | none => exact ⟨[], rfl⟩
  | some kind => exact ⟨kind.toText, ensure_eq_ok.mpr (decide_eq_true rfl)⟩

/-- Where the total covers the claims, all that an accepted attest can lack is its claim. -/
theorem attestsSound_iff (hs : Solvent s) : AttestsSound T s ↔ NoOrphans s := by
  constructor
  · intro h who signer hpreclaim
    obtain ⟨statement, hstatement⟩ := exists_statement signer s
    obtain ⟨valid, haccepted⟩ :=
      prevalidateAttests_ok_iff.mpr ⟨signer, hpreclaim, hstatement⟩
    cases hclaim : s.claims.lookup signer with
    | some balanceDue => rfl
    | none =>
      have haddressed : Addressed T s signer who (.signed who, .attest statement) :=
        ⟨rfl, hpreclaim, hstatement⟩
      have hfail : processClaim T signer who s = .error (.module .signerHasNoClaim) := by
        simp only [processClaim, hclaim, okOr]
        rfl
      have hdispatch := haddressed.dispatch_error hfail
      rcases h who statement valid haccepted with ⟨s', hok⟩ | hconflict
      · rw [hdispatch] at hok
        cases hok
      · rw [hdispatch] at hconflict
        cases hconflict
  · intro h who statement valid haccepted
    obtain ⟨signer, hpreclaim, hstatement⟩ := prevalidateAttests_ok_iff.mp ⟨valid, haccepted⟩
    obtain ⟨balanceDue, hclaim⟩ := Option.isSome_iff_exists.mp (h who signer hpreclaim)
    have haddressed : Addressed T s signer who (.signed who, .attest statement) :=
      ⟨rfl, hpreclaim, hstatement⟩
    have hprocess := processClaim_of_covered (T := T) who hclaim (hs.covers hclaim)
    split at hprocess
    · exact Or.inr (haddressed.dispatch_error hprocess)
    · obtain ⟨s', hs', _⟩ := haddressed.dispatch (processClaim_ok_iff.mp hprocess)
      exact Or.inl ⟨s', hs'⟩

/-! ## Steps that orphan a preclaim -/

/-- The action takes a claim away from an account that names it: it pays the claim, and the
account is not the one that attests, or moves it without the preclaim of the account. -/
def Orphans (T : Config A σ H) (s : State A σ H) : Action A σ H → Prop
  | .call origin (.moveClaim old new maybePreclaim) =>
    ensureMove T origin = .ok () ∧ old ≠ new ∧ (s.claims.lookup old).isSome ∧
      ∃ who, s.preclaims.lookup who = some old ∧ maybePreclaim ≠ some who
  | .call origin call =>
    ∃ signer dest, Addressed T s signer dest (origin, call) ∧ Payable T s signer dest ∧
      ∃ who, s.preclaims.lookup who = some signer ∧ origin ≠ .signed who
  | .outside .. => False

/-! ### Payments -/

/-- A call that pays removes the preclaim of the account that attests, and no other. -/
theorem dispatch_preclaims {origin : Origin A} {call : Call A} {s' : State A σ H}
    (hpays : call.pays = true) (h : dispatch T origin call s = .ok s') (who : A) :
    s'.preclaims.lookup who =
      if origin = .signed who then none else s.preclaims.lookup who := by
  have hkeeps : ∀ {signer dest s₁}, processClaim T signer dest s = .ok s₁ →
      s₁.preclaims = s.preclaims := by
    intro signer dest s₁ hpaid
    obtain ⟨_, _, _, _, rfl⟩ := processClaim_eq_ok.mp hpaid
    rfl
  cases call with
  | claim dest signature =>
    simp only [dispatch, claim, bind_eq_ok, ensureNone_eq_ok] at h
    obtain ⟨_, rfl, _, _, _, _, hpaid⟩ := h
    rw [if_neg (by simp), hkeeps hpaid]
  | claimAttest dest signature statement =>
    simp only [dispatch, claimAttest, bind_eq_ok, ensureNone_eq_ok] at h
    obtain ⟨_, rfl, _, _, _, _, hpaid⟩ := h
    rw [if_neg (by simp), hkeeps hpaid]
  | attest statement =>
    simp only [dispatch, attest, bind_eq_ok, ensureSigned_eq_ok] at h
    obtain ⟨dest, rfl, _, _, _, _, s₁, hpaid, hs'⟩ := h
    cases hs'
    show (s₁.preclaims.erase dest).lookup who = _
    by_cases hwho : who = dest
    · subst hwho
      rw [Finmap.lookup_erase, if_pos rfl]
    · have hne : Origin.signed dest ≠ Origin.signed who := by
        rintro ⟨⟩
        exact hwho rfl
      rw [Finmap.lookup_erase_ne hwho, hkeeps hpaid, if_neg hne]
  | mintClaim => cases hpays
  | moveClaim => cases hpays

omit [DecidableEq A] in
theorem processClaim_claims {signer : EthereumAddress} {dest : A} {s₁ : State A σ H}
    (h : processClaim T signer dest s = .ok s₁) : s₁.claims = s.claims.erase signer := by
  obtain ⟨_, _, _, _, rfl⟩ := processClaim_eq_ok.mp h
  rfl

/-- What a payment leaves of the claims and the preclaims. -/
theorem Addressed.leaves {origin : Origin A} {call : Call A} {signer : EthereumAddress} {dest : A}
    (h : Addressed T s signer dest (origin, call)) (hpayable : Payable T s signer dest)
    (hpays : call.pays = true) :
    (Claims.applyCall T s (origin, call)).claims = s.claims.erase signer ∧
      ∀ who, (Claims.applyCall T s (origin, call)).preclaims.lookup who =
        if origin = .signed who then none else s.preclaims.lookup who := by
  obtain ⟨s', hs', s₁, hpaid, heq⟩ := h.dispatch hpayable
  have happly : Claims.applyCall T s (origin, call) = s' := by rw [Claims.applyCall, hs']
  rw [happly]
  refine ⟨?_, dispatch_preclaims hpays hs'⟩
  rw [heq]
  show s₁.claims = _
  exact processClaim_claims hpaid

theorem noOrphans_pays {origin : Origin A} {call : Call A} (hs : NoOrphans s)
    (hpays : call.pays = true) :
    NoOrphans (applyCall T s (origin, call)) ↔
      ¬∃ signer dest, Addressed T s signer dest (origin, call) ∧ Payable T s signer dest ∧
        ∃ who, s.preclaims.lookup who = some signer ∧ origin ≠ .signed who := by
  constructor
  · -- the account that is left names a claim that is gone
    rintro h ⟨signer, dest, haddressed, hpayable, who, hwho, hne⟩
    obtain ⟨hclaims, hpreclaims⟩ := haddressed.leaves hpayable hpays
    have hleft := h who signer (by rw [hpreclaims, if_neg hne, hwho])
    rw [hclaims, Finmap.lookup_erase] at hleft
    cases hleft
  · intro hnone
    rcases applyCall_pays T s origin hpays with
      ⟨signer, dest, haddressed, hpayable, _⟩ | hsame
    · obtain ⟨hclaims, hpreclaims⟩ := haddressed.leaves hpayable hpays
      intro who a hwho
      rw [hpreclaims] at hwho
      split at hwho
      · cases hwho
      next hne =>
        have ha : a ≠ signer := by
          rintro rfl
          exact hnone ⟨a, dest, haddressed, hpayable, who, hwho, hne⟩
        rw [hclaims, Finmap.lookup_erase_ne ha]
        exact hs who a hwho
    · rw [hsame]
      exact hs

/-! ### Moves -/

theorem lookup_movePreclaim (maybePreclaim : Option A) (m : StorageMap A EthereumAddress)
    (who : A) :
    (movePreclaim old new maybePreclaim m).lookup who =
      if maybePreclaim = some who ∧ m.lookup who = some old then some new else m.lookup who := by
  unfold movePreclaim
  cases maybePreclaim with
  | none => simp
  | some x =>
    by_cases hx : m.lookup x = some old
    · by_cases hwho : x = who
      · subst hwho
        simp [hx]
      · simp [hx, hwho, Finmap.lookup_insert_of_ne _ (Ne.symm hwho)]
    · by_cases hwho : x = who
      · subst hwho
        simp [hx]
      · simp [hx, hwho]

/-- A move keeps the claims of all addresses but the old one. -/
theorem isSome_lookup_moveEntry {m : StorageMap EthereumAddress Nat} (hne : old ≠ new)
    (hold : (m.lookup old).isSome) (a : EthereumAddress) :
    ((moveEntry old new m).lookup a).isSome ↔ a = new ∨ a ≠ old ∧ (m.lookup a).isSome := by
  obtain ⟨v, hv⟩ := Option.isSome_iff_exists.mp hold
  simp only [moveEntry, hv]
  by_cases hnew : a = new
  · subst hnew
    simp
  · rw [Finmap.lookup_insert_of_ne _ hnew]
    by_cases ha : a = old
    · subst ha
      simp [hnew]
    · simp [hnew, ha, Finmap.lookup_erase_ne]

/-- A move onto the same address, or without a claim to move, moves nothing. -/
theorem moveEntry_same {m : StorageMap EthereumAddress Nat}
    (h : ¬(old ≠ new ∧ (m.lookup old).isSome)) : moveEntry old new m = m := by
  unfold moveEntry
  cases hold : m.lookup old with
  | none => rfl
  | some v =>
    have heq : old = new := by
      by_contra hne
      exact h ⟨hne, by rw [hold]; rfl⟩
    subst heq
    exact insert_erase hold

/-- The preclaims that a move leaves name claims, when those before it do, exactly when it
moves the preclaim of every account that names the moved claim. -/
theorem noOrphans_moved {maybePreclaim : Option A} (hs : NoOrphans s) :
    (∀ who signer, (movePreclaim old new maybePreclaim s.preclaims).lookup who = some signer →
        ((moveEntry old new s.claims).lookup signer).isSome) ↔
      ¬(old ≠ new ∧ (s.claims.lookup old).isSome ∧
        ∃ who, s.preclaims.lookup who = some old ∧ maybePreclaim ≠ some who) := by
  simp only [lookup_movePreclaim]
  by_cases hmoves : old ≠ new ∧ (s.claims.lookup old).isSome
  · obtain ⟨hne, hold⟩ := hmoves
    simp only [isSome_lookup_moveEntry hne hold]
    constructor
    · rintro h ⟨_, _, who, hwho, hleft⟩
      have hsigner := h who old (by rw [if_neg fun hboth => hleft hboth.1, hwho])
      rcases hsigner with hnew | ⟨hsame, _⟩
      · exact hne hnew
      · exact hsame rfl
    · intro hnone who signer hwho
      split at hwho
      next => exact Or.inl (Option.some.inj hwho).symm
      next hstays =>
        refine Or.inr ⟨?_, hs who signer hwho⟩
        rintro rfl
        exact hnone ⟨hne, hold, who, hwho, fun hnamed => hstays ⟨hnamed, hwho⟩⟩
  · refine ⟨fun _ hbad => hmoves ⟨hbad.1, hbad.2.1⟩, fun _ who signer hwho => ?_⟩
    rw [moveEntry_same hmoves]
    split at hwho
    next hboth =>
      -- the account names `old`, so `old` has a claim, and must be `new`
      have hold := hs who old hboth.2
      have heq : old = new := by
        by_contra hne
        exact hmoves ⟨hne, hold⟩
      cases hwho
      exact heq ▸ hold
    next => exact hs who signer hwho

theorem noOrphans_move {origin : Origin A} {maybePreclaim : Option A} (hs : NoOrphans s) :
    NoOrphans (applyCall T s (origin, .moveClaim old new maybePreclaim)) ↔
      ¬Orphans T s (.call origin (.moveClaim old new maybePreclaim)) := by
  show _ ↔ ¬(ensureMove T origin = .ok () ∧ _)
  cases hmove : ensureMove T origin with
  | error e =>
    have hfails : dispatch T origin (.moveClaim old new maybePreclaim) s = .error e := by
      simp only [dispatch, moveClaim, hmove]
      rfl
    have hsame : applyCall T s (origin, .moveClaim old new maybePreclaim) = s := by
      rw [applyCall, hfails]
    rw [hsame]
    refine iff_of_true hs ?_
    rintro ⟨hok, _⟩
    cases hok
  | ok u =>
    have hmoved : applyCall T s (origin, .moveClaim old new maybePreclaim) =
        { s with
          claims := moveEntry old new s.claims
          vesting := moveEntry old new s.vesting
          signing := moveEntry old new s.signing
          preclaims := movePreclaim old new maybePreclaim s.preclaims } := by
      simp only [applyCall, dispatch, moveClaim, hmove]
      rfl
    rw [hmoved]
    show (∀ who signer, (movePreclaim old new maybePreclaim s.preclaims).lookup who = some signer →
      ((moveEntry old new s.claims).lookup signer).isSome) ↔ _
    rw [noOrphans_moved hs]
    exact not_congr ⟨fun hbad => ⟨rfl, hbad⟩, fun hbad => hbad.2⟩

/-- Minting adds a claim, and pays none. -/
theorem noOrphans_mint {origin : Origin A} {who : EthereumAddress} {value : Nat}
    {vestingSchedules : Option (List Schedule)} {statement : Option StatementKind}
    (hs : NoOrphans s) :
    NoOrphans (applyCall T s (origin, .mintClaim who value vestingSchedules statement)) := by
  cases origin with
  | root =>
    show ∀ a signer, s.preclaims.lookup a = some signer →
      ((s.claims.insert who value).lookup signer).isSome
    intro a signer ha
    by_cases hsigner : signer = who
    · subst hsigner
      rw [Finmap.lookup_insert]
      rfl
    · rw [Finmap.lookup_insert_of_ne _ hsigner]
      exact hs a signer ha
  | signed _ => exact hs
  | none => exact hs
  | other _ => exact hs

/-! ## Whole runs -/

/-- A step keeps every preclaim on a claim exactly when it orphans none. -/
theorem noOrphans_next_iff (a : Action A σ H) (hs : NoOrphans s) :
    NoOrphans (next T s a) ↔ ¬Orphans T s a := by
  cases a with
  | call origin call =>
    cases call with
    | claim dest signature => exact noOrphans_pays hs rfl
    | claimAttest dest signature statement => exact noOrphans_pays hs rfl
    | attest statement => exact noOrphans_pays hs rfl
    | moveClaim old new maybePreclaim => exact noOrphans_move hs
    | mintClaim who value vestingSchedules statement =>
      refine iff_of_true (noOrphans_mint hs) ?_
      rintro ⟨_, _, haddressed, _⟩
      exact haddressed
  | outside block ledger handler => exact iff_of_true hs not_false

/-- Every preclaim of a genesis is of one of its claims. -/
theorem noOrphans_genesis (config : GenesisConfig A) (ledger : σ) (handler : H) :
    NoOrphans (genesisBuild config ledger handler) := by
  intro who signer hwho
  have hmem := mem_of_lookup_ofList hwho
  obtain ⟨c, hc, hentry⟩ := List.mem_filterMap.mp hmem
  obtain ⟨_, _, heq⟩ := Option.map_eq_some_iff.mp hentry
  cases heq
  show ((StorageMap.ofList _).lookup c.address).isSome
  rw [isSome_lookup_ofList, List.map_map]
  exact List.mem_map_of_mem (f := fun c : GenesisClaim A => c.address) hc

/-- From a genesis, over any calls whose sums fit: in every state of the run the attests that
the extension accepts succeed, but for vesting conflicts, exactly when no step orphans a
preclaim. -/
theorem attests_sound_iff (T : Config A σ H) (config : GenesisConfig A) (ledger : σ)
    (handler : H) (actions : List (Action A σ H))
    (hgenesis : (config.claims.map GenesisClaim.amount).sum < balanceLimit)
    (hfits : Along (next T) ActionFits (genesisBuild config ledger handler) actions) :
    Always (next T) (AttestsSound T) (genesisBuild config ledger handler) actions ↔
      Along (next T) (fun s a => ¬Orphans T s a) (genesisBuild config ledger handler)
        actions := by
  have hsolvent : Always (next T) Solvent (genesisBuild config ledger handler) actions :=
    always_of_invariant (fun _ a hs ha => solvent_next a hs ha)
      (solvent_genesis ledger handler hgenesis) hfits
  have hstep : ∀ (s : State A σ H) (a : Action A σ H), NoOrphans s → ActionFits s a →
      (NoOrphans (next T s a) ∧ True ↔ ¬Orphans T s a) := by
    intro s a hs _
    rw [and_true]
    exact noOrphans_next_iff a hs
  have hiff := always_iff_along hstep (noOrphans_genesis config ledger handler) hfits
  rw [← hiff]
  constructor
  · intro hsound
    exact ⟨(hsolvent.and hsound).imp fun s h => (attestsSound_iff h.1).mp h.2,
      hfits.imp fun _ _ _ => trivial⟩
  · rintro ⟨hnone, _⟩
    exact (hsolvent.and hnone).imp fun s h => (attestsSound_iff h.1).mpr h.2

/-- The claim of account `42` is minted over, and the account attests. -/
theorem attests_sound_iff_mock :
    Always (next mockRuntime) (AttestsSound mockRuntime) (genesisBuild mockGenesis mockLedger [])
      [.call .root (.mintClaim (mockAddress 1) 30 none none), .call (.signed 42) (.attest [])] := by
  apply (attests_sound_iff mockRuntime mockGenesis mockLedger []
    [.call .root (.mintClaim (mockAddress 1) 30 none none), .call (.signed 42) (.attest [])]
    (by decide) ⟨fun _ => by decide, trivial, trivial⟩).mpr
  refine ⟨?_, ?_, trivial⟩
  · rintro ⟨_, _, haddressed, _⟩
    exact haddressed
  · rintro ⟨signer, _, _, _, who, hwho, hne⟩
    -- nobody else has a preclaim
    have hmem := mem_of_lookup_ofList (l := [(42, mockAddress 1)]) hwho
    cases List.mem_singleton.mp hmem
    exact hne rfl

/-- The claim is paid to `7` by a signature; the attest of `42`, who still has a preclaim of it,
is then accepted and fails. -/
theorem preclaim_outlives_claim :
    ¬Always (next mockSigned) (AttestsSound mockSigned)
      (genesisBuild ⟨[⟨mockAddress 0, 100, none, some 42, none⟩], []⟩ mockLedger [])
      [.call .none (.claim 7 (Vector.replicate 65 0))] := by
  intro h
  have hfails : ∀ s, s = next mockSigned
      (genesisBuild ⟨[⟨mockAddress 0, 100, none, some 42, none⟩], []⟩ mockLedger [])
        (.call .none (.claim 7 (Vector.replicate 65 0))) →
      dispatch mockSigned (.signed 42) (.attest []) s = .error (.module .signerHasNoClaim) := by
    rintro s rfl
    rfl
  rcases h.2 42 [] _ rfl with ⟨s', hok⟩ | hconflict
  · rw [hfails _ rfl] at hok
    cases hok
  · rw [hfails _ rfl] at hconflict
    cases hconflict

end XXChain.Claims
