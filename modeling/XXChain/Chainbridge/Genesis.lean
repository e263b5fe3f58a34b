import XXChain.Chainbridge.Model
import XXChain.Lib.Run

/-!
# XXChain — the genesis of the bridge

The genesis build of the swap pallet initialises the bridge and expects it to go through: it panics
with a configuration that does not, and the chain does not start.

* **`whitelisting_ok_iff`** and **`registering_ok_iff`** — when the two loops that check their
  entries go through;
* **`initializeBridge_eq_ok_iff`** — the configurations that a chain starts with, and all that its
  bridge has in its storage then.
-/

namespace XXChain.Chainbridge

open StorageMap

variable {A O W : Type} [DecidableEq A] [DecidableEq O] {T : Config A O W} {s s' : State A O W}

/-! ## The chains -/

/-- The state after a chain is whitelisted. -/
def whitelisted (s : State A O W) (id : ChainId) : State A O W :=
  { s with chainNonces := s.chainNonces.insert id 0 }.depositEvent (.chainWhitelisted id)

omit [DecidableEq A] [DecidableEq O] in
theorem whitelist_eq_ok {id : ChainId} :
    whitelist T id s = .ok s' ↔
      (id ≠ T.chainId ∧ s.chainNonces.lookup id = none) ∧ s' = whitelisted s id := by
  simp only [whitelist, bind_eq_ok, ensure_eq_ok, chainWhitelisted, bne_iff_ne, ne_eq,
    Bool.not_eq_true', Option.isSome_eq_false_iff, Option.isNone_iff_eq_none]
  constructor
  · rintro ⟨_, hown, _, hfresh, hs'⟩
    exact ⟨⟨hown, hfresh⟩, (Except.ok.inj hs').symm⟩
  · rintro ⟨⟨hown, hfresh⟩, rfl⟩
    exact ⟨(), hown, (), hfresh, rfl⟩

omit [DecidableEq A] [DecidableEq O] in
/-- A chain may be listed once, and not the own one. -/
theorem whitelisting_ok_iff {chains : List ChainId} :
    Along whitelisted (fun s id => id ≠ T.chainId ∧ s.chainNonces.lookup id = none) s chains ↔
      chains.Nodup ∧ T.chainId ∉ chains ∧ ∀ id ∈ chains, s.chainNonces.lookup id = none := by
  induction chains generalizing s with
  | nil => exact ⟨fun _ => ⟨List.nodup_nil, nofun, nofun⟩, fun _ => trivial⟩
  | cons id chains ih =>
    have hlookup : ∀ other, (whitelisted s id).chainNonces.lookup other =
        if other = id then some 0 else s.chainNonces.lookup other := by
      intro other
      split
      next heq => rw [heq]; exact Finmap.lookup_insert _
      next hne => exact Finmap.lookup_insert_of_ne _ hne
    show (_ ∧ Along _ _ (whitelisted s id) chains) ↔ _
    rw [ih, List.nodup_cons, List.mem_cons, not_or, List.forall_mem_cons]
    constructor
    · rintro ⟨⟨hown, hfresh⟩, hnodup, hown', hrest⟩
      have hnew : id ∉ chains := by
        intro hmem
        have hnone := hrest id hmem
        rw [hlookup, if_pos rfl] at hnone
        cases hnone
      refine ⟨⟨hnew, hnodup⟩, ⟨Ne.symm hown, hown'⟩, hfresh, fun other hother => ?_⟩
      have hnone := hrest other hother
      have hne : other ≠ id := fun heq => hnew (heq ▸ hother)
      rwa [hlookup, if_neg hne] at hnone
    · rintro ⟨⟨hnew, hnodup⟩, ⟨hown, hown'⟩, hfresh, hrest⟩
      refine ⟨⟨Ne.symm hown, hfresh⟩, hnodup, hown', fun other hother => ?_⟩
      have hne : other ≠ id := fun heq => hnew (heq ▸ hother)
      rw [hlookup, if_neg hne]
      exact hrest other hother

omit [DecidableEq A] [DecidableEq O] in
theorem foldl_whitelisted (chains : List ChainId) :
    chains.foldl whitelisted s =
      { s with
        chainNonces := chains.foldl (fun m id => m.insert id 0) s.chainNonces
        events := s.events ++ chains.map .chainWhitelisted } := by
  induction chains generalizing s with
  | nil => simp
  | cons id chains ih =>
    rw [List.foldl_cons, ih]
    simp [whitelisted, State.depositEvent]

/-! ## The relayers -/

/-- The state after a relayer is registered. -/
def registered (s : State A O W) (relayer : A) : State A O W :=
  { s with
    relayers := s.relayers.insert relayer true
    relayerCount := s.relayerCount + 1 }.depositEvent (.relayerAdded relayer)

omit [DecidableEq O] in
theorem registerRelayer_eq_ok {relayer : A} :
    registerRelayer relayer s = .ok s' ↔
      isRelayer relayer s = false ∧ s' = registered s relayer := by
  simp only [registerRelayer, bind_eq_ok, ensure_eq_ok, Bool.not_eq_true']
  constructor
  · rintro ⟨_, hnew, hs'⟩
    exact ⟨hnew, (Except.ok.inj hs').symm⟩
  · rintro ⟨hnew, rfl⟩
    exact ⟨(), hnew, rfl⟩

omit [DecidableEq O] in
/-- A relayer may be listed once. -/
theorem registering_ok_iff {relayers : List A} :
    Along registered (fun s relayer => isRelayer relayer s = false) s relayers ↔
      relayers.Nodup ∧ ∀ relayer ∈ relayers, isRelayer relayer s = false := by
  induction relayers generalizing s with
  | nil => exact ⟨fun _ => ⟨List.nodup_nil, nofun⟩, fun _ => trivial⟩
  | cons relayer relayers ih =>
    have hrelayer : ∀ other, isRelayer other (registered s relayer) =
        if other = relayer then true else isRelayer other s := by
      intro other
      unfold isRelayer
      show (((s.relayers.insert relayer true).lookup other).getD false) = _
      split
      next heq => rw [heq, Finmap.lookup_insert]; rfl
      next hne => rw [Finmap.lookup_insert_of_ne _ hne]
    show (_ ∧ Along _ _ (registered s relayer) relayers) ↔ _
    rw [ih, List.nodup_cons, List.forall_mem_cons]
    constructor
    · rintro ⟨hfirst, hnodup, hrest⟩
      have hnew : relayer ∉ relayers := by
        intro hmem
        have hnot := hrest relayer hmem
        rw [hrelayer, if_pos rfl] at hnot
        cases hnot
      refine ⟨⟨hnew, hnodup⟩, hfirst, fun other hother => ?_⟩
      have hnot := hrest other hother
      have hne : other ≠ relayer := fun heq => hnew (heq ▸ hother)
      rwa [hrelayer, if_neg hne] at hnot
    · rintro ⟨⟨hnew, hnodup⟩, hfirst, hrest⟩
      refine ⟨hfirst, hnodup, fun other hother => ?_⟩
      have hne : other ≠ relayer := fun heq => hnew (heq ▸ hother)
      rw [hrelayer, if_neg hne]
      exact hrest other hother

omit [DecidableEq O] in
theorem foldl_registered (relayers : List A) :
    relayers.foldl registered s =
      { s with
        relayers := relayers.foldl (fun m relayer => m.insert relayer true) s.relayers
        relayerCount := s.relayerCount + UInt32.ofNat relayers.length
        events := s.events ++ relayers.map .relayerAdded } := by
  induction relayers generalizing s with
  | nil => simp
  | cons relayer relayers ih =>
    have hcount : s.relayerCount + 1 + UInt32.ofNat relayers.length =
        s.relayerCount + UInt32.ofNat (relayers.length + 1) := by
      rw [UInt32.ofNat_add, UInt32.add_assoc, UInt32.add_comm 1]
      rfl
    rw [List.foldl_cons, ih]
    simp only [registered, State.depositEvent, List.foldl_cons, List.length_cons, List.map_cons,
      List.append_assoc, List.singleton_append, hcount]

/-! ## The whole configuration -/

omit [DecidableEq A] [DecidableEq O] in
theorem foldlM_registerResource (resources : List (ResourceId × List UInt8)) :
    resources.foldlM (fun s entry => registerResource entry.1 entry.2 s) s =
      .ok { s with resources :=
        resources.foldl (fun m entry => m.insert entry.1 entry.2) s.resources } := by
  induction resources generalizing s with
  | nil => rfl
  | cons entry resources ih =>
    rw [List.foldlM_cons]
    exact ih

/-- What a chain may start with. Nothing is asked of the resources. -/
structure ValidGenesis (T : Config A O W) (chains : List ChainId) (relayers : List A)
    (threshold : UInt32) : Prop where
  chains_nodup : chains.Nodup
  own_chain : T.chainId ∉ chains
  relayers_nodup : relayers.Nodup
  threshold_pos : 0 < threshold

/-- The storage of the bridge when the chain starts. The events are those that the build deposits;
`frame_system` keeps none of block `0`, and nothing reads them. -/
def genesisState (chains : List ChainId) (relayers : List A)
    (resources : List (ResourceId × List UInt8)) (threshold : UInt32) (world : W) :
    State A O W :=
  { State.default world with
    chainNonces := .ofList (chains.map (·, 0))
    relayerThreshold := threshold
    relayers := .ofList (relayers.map (·, true))
    relayerCount := UInt32.ofNat relayers.length
    resources := .ofList resources
    events := chains.map .chainWhitelisted ++ relayers.map .relayerAdded ++
      [.relayerThresholdChanged threshold] }

omit [DecidableEq O] in
/-- **The genesis of the bridge.** The chain starts exactly when no chain and no relayer is listed
twice, the own chain is not listed, and the threshold is positive; it may be more than there are
relayers. Then the bridge has what is listed, with the last method of each resource. -/
theorem initializeBridge_eq_ok_iff (T : Config A O W) (chains : List ChainId) (relayers : List A)
    (resources : List (ResourceId × List UInt8)) (threshold : UInt32) (world : W)
    (s : State A O W) :
    initializeBridge T chains relayers resources threshold (State.default world) = .ok s ↔
      ValidGenesis T chains relayers threshold ∧
        s = genesisState chains relayers resources threshold world := by
  have hloops : ∀ s₁ s₂ : State A O W,
      chains.foldlM (fun s c => whitelist T c s) (State.default world) = .ok s₁ ∧
        relayers.foldlM (fun s rs => registerRelayer rs s) s₁ = .ok s₂ ↔
      (chains.Nodup ∧ T.chainId ∉ chains ∧ relayers.Nodup) ∧
        s₁ = chains.foldl whitelisted (State.default world) ∧
        s₂ = relayers.foldl registered s₁ := by
    intro s₁ s₂
    rw [foldlM_eq_ok_iff (fun _ _ _ => whitelist_eq_ok),
      foldlM_eq_ok_iff (fun _ _ _ => registerRelayer_eq_ok), whitelisting_ok_iff,
      registering_ok_iff]
    constructor
    · rintro ⟨⟨⟨hchains, hown, _⟩, hs₁⟩, ⟨hrelayers, _⟩, hs₂⟩
      exact ⟨⟨hchains, hown, hrelayers⟩, hs₁, hs₂⟩
    · rintro ⟨⟨hchains, hown, hrelayers⟩, rfl, hs₂⟩
      refine ⟨⟨⟨hchains, hown, fun _ _ => rfl⟩, rfl⟩, ⟨hrelayers, fun relayer _ => ?_⟩, hs₂⟩
      rw [foldl_whitelisted]
      rfl
  have hstate : ∀ s₂ : State A O W,
      s₂ = relayers.foldl registered (chains.foldl whitelisted (State.default world)) →
      State.depositEvent
        { s₂ with
          resources := resources.foldl (fun m entry => m.insert entry.1 entry.2) s₂.resources
          relayerThreshold := threshold } (.relayerThresholdChanged threshold) =
        genesisState chains relayers resources threshold world := by
    rintro _ rfl
    rw [foldl_whitelisted, foldl_registered]
    simp only [genesisState, State.depositEvent, State.default, ofList, List.foldl_map,
      UInt32.zero_add, List.nil_append, List.append_assoc]
  simp only [initializeBridge, bind_eq_ok, foldlM_registerResource, setRelayerThreshold,
    ensure_eq_ok, decide_eq_true_eq]
  constructor
  · rintro ⟨s₁, hchains, s₂, hrelayers, s₃, hs₃, _, hthreshold, hs⟩
    obtain ⟨⟨hnodup, hown, hnodup'⟩, rfl, rfl⟩ := (hloops s₁ s₂).mp ⟨hchains, hrelayers⟩
    cases hs₃
    refine ⟨⟨hnodup, hown, hnodup', hthreshold⟩, ?_⟩
    rw [← hstate _ rfl]
    exact (Except.ok.inj hs).symm
  · rintro ⟨hvalid, hs⟩
    obtain ⟨hchains, hrelayers⟩ := (hloops _ _).mpr
      ⟨⟨hvalid.chains_nodup, hvalid.own_chain, hvalid.relayers_nodup⟩, rfl, rfl⟩
    refine ⟨_, hchains, _, hrelayers, _, rfl, (), hvalid.threshold_pos, ?_⟩
    rw [hs, ← hstate _ rfl]

end XXChain.Chainbridge
