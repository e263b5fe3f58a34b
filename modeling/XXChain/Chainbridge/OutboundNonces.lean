import XXChain.Chainbridge.SmallStep
import XXChain.Lib.SequenceNumbers

/-!
# XXChain — outbound nonces

The three functions that start a transfer out of the chain share the counter of the
destination chain, whose presence in `ChainNonces` is also what whitelists the chain. The
counters and the nonces in the transfer events are an issuer of sequence numbers
(`SequenceNumbers`), with a sequence for each destination.

* **`smallStep_issuer`** — whatever a call does to the storage is nothing to the issuer,
  opens a chain other than the own one, or issues a nonce;
* **`sound_run`** — so in every state of a run from genesis the issuer is sound;
* **`noncesInOrder_of_sound`** — a sound issuer of fewer than `2 ^ 64` nonces has issued
  `1, 2, 3, …` for each destination.
-/

namespace XXChain.Chainbridge

open Relation SequenceNumbers

variable {A O W : Type}

/-! ## Transfers -/

/-- A transfer out of the chain that another pallet starts. -/
inductive Transfer where
  | fungible (destId : ChainId) (resourceId : ResourceId) (recipient : List UInt8)
      (amount : BitVec 256)
  | nonfungible (destId : ChainId) (resourceId : ResourceId)
      (tokenId recipient metadata : List UInt8)
  | generic (destId : ChainId) (resourceId : ResourceId) (metadata : List UInt8)
  deriving DecidableEq, Repr

namespace Transfer

def destId : Transfer → ChainId
  | fungible destId .. => destId
  | nonfungible destId .. => destId
  | generic destId .. => destId

def event (nonce : DepositNonce) : Transfer → Event A
  | fungible destId resourceId recipient amount =>
    .fungibleTransfer destId nonce resourceId amount recipient
  | nonfungible destId resourceId tokenId recipient metadata =>
    .nonFungibleTransfer destId nonce resourceId tokenId recipient metadata
  | generic destId resourceId metadata => .genericTransfer destId nonce resourceId metadata

def run (s : State A O W) : Transfer → DispatchResult (State A O W)
  | fungible destId resourceId recipient amount =>
    transferFungible destId resourceId recipient amount s
  | nonfungible destId resourceId tokenId recipient metadata =>
    transferNonfungible destId resourceId tokenId recipient metadata s
  | generic destId resourceId metadata => transferGeneric destId resourceId metadata s

end Transfer

/-- The destination and the nonce of an event of a transfer. -/
def Event.sent : Event A → Option (ChainId × DepositNonce)
  | .fungibleTransfer destId nonce .. => some (destId, nonce)
  | .nonFungibleTransfer destId nonce .. => some (destId, nonce)
  | .genericTransfer destId nonce .. => some (destId, nonce)
  | _ => none

theorem sent_event (t : Transfer) (nonce : DepositNonce) :
    (t.event nonce : Event A).sent = some (t.destId, nonce) := by
  cases t <;> rfl

/-- A transfer to a listed chain bumps its nonce, and deposits the event with it. -/
theorem Transfer.run_ok {s s' : State A O W} {t : Transfer} (h : t.run s = .ok s') :
    ∃ nonce, s.chainNonces.lookup t.destId = some nonce ∧
      s' = { s with
        chainNonces := s.chainNonces.insert t.destId (nonce + 1)
        events := s.events ++ [t.event (nonce + 1)] } := by
  have hrun : chainWhitelisted t.destId s = true ∧
      s' = (bumpNonce t.destId s).2.depositEvent (t.event (bumpNonce t.destId s).1) := by
    cases t with
    | fungible | nonfungible | generic =>
      simp only [Transfer.run, transferFungible, transferNonfungible, transferGeneric,
        bind_eq_ok, ensure_eq_ok] at h
      obtain ⟨_, hlisted, hs'⟩ := h
      cases hs'
      exact ⟨hlisted, rfl⟩
  obtain ⟨hlisted, hs'⟩ := hrun
  obtain ⟨nonce, hnonce⟩ := Option.isSome_iff_exists.mp hlisted
  refine ⟨nonce, hnonce, ?_⟩
  rw [hs', bumpNonce, hnonce]
  rfl

/-! ## The issuer of the nonces -/

/-- The counters of the chains, and the nonces of the transfer events so far. -/
def issuer (s : State A O W) : Issuer ChainId DepositNonce where
  counter := s.chainNonces.lookup
  log := s.events.filterMap Event.sent

/-- A step of the issuer of the runtime: its own chain is never opened. -/
abbrev NonceStep (T : Config A O W) :
    Issuer ChainId DepositNonce → Issuer ChainId DepositNonce → Prop :=
  SequenceNumbers.Step (fun id => id ≠ T.chainId) 0 (· + 1)

theorem issuer_congr {s s' : State A O W} (hnonces : s'.chainNonces = s.chainNonces)
    {e : Event A} (hevents : s'.events = s.events ++ [e]) (hquiet : e.sent = none) :
    issuer s' = issuer s := by
  unfold issuer
  rw [hnonces, hevents, List.filterMap_append, List.filterMap_cons_none hquiet,
    List.filterMap_nil, List.append_nil]

theorem lookup_insert_eq_update {V : Type} (m : StorageMap ChainId V) (id : ChainId) (v : V) :
    (m.insert id v).lookup = Function.update m.lookup id (some v) := by
  funext x
  by_cases hx : x = id
  · rw [hx, Finmap.lookup_insert, Function.update_self]
  · rw [Finmap.lookup_insert_of_ne _ hx, Function.update_of_ne hx]

theorem issuer_transfer (T : Config A O W) {s s' : State A O W} {t : Transfer}
    (h : t.run s = .ok s') : NonceStep T (issuer s) (issuer s') := by
  obtain ⟨nonce, hnonce, hs'⟩ := Transfer.run_ok h
  have hissued : issuer s' =
      { counter := Function.update (issuer s).counter t.destId (some (nonce + 1))
        log := (issuer s).log ++ [(t.destId, nonce + 1)] } := by
    rw [hs']
    unfold issuer
    rw [List.filterMap_append, List.filterMap_cons_some (sent_event t (nonce + 1)),
      List.filterMap_nil, lookup_insert_eq_update]
  rw [hissued]
  exact .issued (issuer s) t.destId nonce hnonce

/-- The other pallets reach the nonces through transfers only. -/
def Config.TransfersOnly (T : Config A O W) : Prop :=
  ∀ call origin s s', T.other call origin s = .ok s' →
    ReflTransGen (NonceStep T) (issuer s) (issuer s')

variable [DecidableEq A] [DecidableEq O] {T : Config A O W} {s s' s₀ : State A O W}

omit [DecidableEq A] [DecidableEq O] in
theorem quiet_issuer (hnonces : s'.chainNonces = s.chainNonces) {e : Event A}
    (hevents : s'.events = s.events ++ [e]) (hquiet : e.sent = none) :
    ReflTransGen (NonceStep T) (issuer s) (issuer s') := by
  rw [issuer_congr hnonces hevents hquiet]

theorem smallStep_issuer (hT : T.TransfersOnly) (h : SmallStep T s s') :
    ReflTransGen (NonceStep T) (issuer s) (issuer s') := by
  cases h with
  | setResource | removeResource | advance => exact .refl
  -- an event that is none of a transfer
  | setThreshold | addRelayer | removeRelayer | approve | reject | succeed =>
    exact quiet_issuer rfl rfl rfl
  | vote who nonce srcId rId prop inFavour votes =>
    have hquiet : (if inFavour = true then Event.voteFor srcId nonce who
        else Event.voteAgainst srcId nonce who).sent = none := by
      cases inFavour <;> rfl
    exact quiet_issuer rfl rfl hquiet
  | whitelistChain id hother hnew =>
    -- an entry in `ChainNonces` whitelists the chain, so there is no counter to overwrite
    have hnone : s.chainNonces.lookup id = none := by
      simpa [chainWhitelisted] using hnew
    have hopened : issuer ({ s with chainNonces := s.chainNonces.insert id 0 }.depositEvent
        (.chainWhitelisted id)) =
          { issuer s with counter := Function.update (issuer s).counter id (some 0) } := by
      unfold issuer State.depositEvent
      rw [List.filterMap_append, lookup_insert_eq_update]
      exact congrArg _ (List.append_nil _)
    rw [hopened]
    exact .single (.opened (issuer s) id hother hnone)
  | other call origin h => exact hT call origin s s' h

theorem smallSteps_issuer (hT : T.TransfersOnly) (h : ReflTransGen (SmallStep T) s s') :
    ReflTransGen (NonceStep T) (issuer s) (issuer s') := by
  induction h with
  | refl => exact .refl
  | tail _ hlast ih => exact ih.trans (smallStep_issuer hT hlast)

/-! ## Runs -/

/-- What happens to the bridge: an extrinsic, a transfer that another pallet starts, or a block
with what its hooks do to the storage of the others. -/
inductive Action (A O W : Type) where
  | extrinsic (origin : Origin A) (call : RuntimeCall A O)
  | transfer (t : Transfer)
  | advance (block : Nat) (world : W)

/-- A transfer that fails changes nothing. -/
def applyTransfer (t : Transfer) (s : State A O W) : State A O W :=
  match t.run s with
  | .ok s' => s'
  | .error _ => s

def next (T : Config A O W) (s : State A O W) : Action A O W → State A O W
  | .extrinsic origin call => applyExtrinsic T origin call s
  | .transfer t => applyTransfer t s
  | .advance block world => advance block world s

theorem next_issuer (hT : T.TransfersOnly) (s : State A O W) (a : Action A O W) :
    ReflTransGen (NonceStep T) (issuer s) (issuer (next T s a)) := by
  cases a with
  | extrinsic origin call =>
    exact smallSteps_issuer hT (step_smallSteps (.extrinsic origin call s))
  | advance block world => exact .refl
  | transfer t =>
    show ReflTransGen (NonceStep T) (issuer s) (issuer (applyTransfer t s))
    unfold applyTransfer
    cases hrun : t.run s with
    | ok s' => exact .single (issuer_transfer T hrun)
    | error e => exact .refl

theorem run_issuer (hT : T.TransfersOnly) (s : State A O W) (actions : List (Action A O W)) :
    ReflTransGen (NonceStep T) (issuer s) (issuer (actions.foldl (next T) s)) := by
  induction actions generalizing s with
  | nil => exact .refl
  | cons a actions ih => exact (next_issuer hT s a).trans (ih (next T s a))

/-- The issuer of the runtime. -/
abbrev SoundIssuer (T : Config A O W) (s : State A O W) : Prop :=
  Sound (fun id => id ≠ T.chainId) 0 (· + 1) (issuer s)

theorem sound_run (hT : T.TransfersOnly) (h₀ : Genesis T s₀) (actions : List (Action A O W)) :
    SoundIssuer T (actions.foldl (next T) s₀) := by
  obtain ⟨world, hgenesis⟩ := genesis_smallSteps h₀
  have hempty : SoundIssuer T (State.default world) := Sound.init rfl rfl
  exact (hempty.run (smallSteps_issuer hT hgenesis)).run (run_issuer hT s₀ actions)

/-! ## The nonces as numbers -/

/-- The nonces of the transfers to a chain, in the order of their events. -/
def sentNonces (dest : ChainId) (s : State A O W) : List DepositNonce :=
  numbersOf dest (issuer s).log

/-- The nonces of each chain are `1, 2, 3, …`, the stored one is their number, and the own chain
has none. -/
structure NoncesInOrder (T : Config A O W) (s : State A O W) : Prop where
  gapless : ∀ dest, (sentNonces dest s).map UInt64.toNat =
    List.range' 1 (sentNonces dest s).length
  counted : ∀ dest, ((s.chainNonces.lookup dest).getD 0).toNat = (sentNonces dest s).length
  own : s.chainNonces.lookup T.chainId = none

theorem iterate_nonce (m : Nat) : (· + 1)^[m] (0 : DepositNonce) = UInt64.ofNat m := by
  induction m with
  | zero => rfl
  | succ m ih =>
    rw [Function.iterate_succ_apply', ih, UInt64.ofNat_add]
    rfl

/-- Fewer than `2 ^ 64` nonces do not wrap. -/
theorem toNat_successors {m : Nat} (hm : m < 2 ^ 64) :
    (successors (0 : DepositNonce) (· + 1) m).map UInt64.toNat = List.range' 1 m := by
  rw [List.range'_eq_map_range, successors, List.map_map]
  apply List.map_congr_left
  intro i hi
  have hlt := List.mem_range.mp hi
  have hsize : i + 1 < UInt64.size := (Nat.succ_le_of_lt hlt).trans_lt hm
  show ((· + 1)^[i + 1] (0 : DepositNonce)).toNat = 1 + i
  rw [iterate_nonce, UInt64.toNat_ofNat_of_lt' hsize, Nat.add_comm]

omit [DecidableEq A] [DecidableEq O] in
/-- A chain without a nonce has been sent none, and counts as one with the nonce zero. -/
theorem sentNonces_of_sound (hs : SoundIssuer T s) (dest : ChainId) :
    ∃ m, sentNonces dest s = successors 0 (· + 1) m ∧
      (s.chainNonces.lookup dest).getD 0 = UInt64.ofNat m := by
  cases hlookup : s.chainNonces.lookup dest with
  | none => exact ⟨0, hs.closed dest hlookup, rfl⟩
  | some nonce =>
    obtain ⟨m, hnumbers, hnonce⟩ := hs.opened dest nonce hlookup
    exact ⟨m, hnumbers, hnonce.trans (iterate_nonce m)⟩

omit [DecidableEq A] [DecidableEq O] in
theorem noncesInOrder_of_sound (hs : SoundIssuer T s) (hfew : (issuer s).log.length < 2 ^ 64) :
    NoncesInOrder T s := by
  have hlength : ∀ dest, (sentNonces dest s).length < 2 ^ 64 := fun dest =>
    (length_numbersOf_le dest _).trans_lt hfew
  constructor
  case gapless =>
    intro dest
    obtain ⟨m, hnumbers, _⟩ := sentNonces_of_sound hs dest
    have hm := hlength dest
    rw [hnumbers, length_successors] at hm ⊢
    exact toNat_successors hm
  case counted =>
    intro dest
    obtain ⟨m, hnumbers, hnonce⟩ := sentNonces_of_sound hs dest
    have hm := hlength dest
    rw [hnumbers, length_successors] at hm ⊢
    rw [hnonce]
    exact UInt64.toNat_ofNat_of_lt' hm
  case own => exact hs.forbidden T.chainId (fun h => h rfl)

/-! ## Nothing is reset -/

omit [DecidableEq A] [DecidableEq O] in
/-- A chain that is listed stays listed, and its nonce does not fall. -/
theorem nonce_kept (hs : NoncesInOrder T s) (hs' : NoncesInOrder T s')
    (h : Extends (issuer s) (issuer s')) {dest : ChainId} {nonce : DepositNonce}
    (hnonce : s.chainNonces.lookup dest = some nonce) :
    ∃ nonce', s'.chainNonces.lookup dest = some nonce' ∧ nonce ≤ nonce' := by
  have hlisted : s'.chainNonces.lookup dest ≠ none := by
    apply h.counter dest
    show s.chainNonces.lookup dest ≠ none
    rw [hnonce]
    exact Option.some_ne_none _
  obtain ⟨nonce', hnonce'⟩ := Option.ne_none_iff_exists'.mp hlisted
  refine ⟨nonce', hnonce', ?_⟩
  have hle : (sentNonces dest s).length ≤ (sentNonces dest s').length :=
    (h.log.filterMap _).length_le
  have hcount := hs.counted dest
  have hcount' := hs'.counted dest
  rw [hnonce, Option.getD_some] at hcount
  rw [hnonce', Option.getD_some] at hcount'
  rw [UInt64.le_iff_toNat_le]
  omega

/-- A listed chain is not whitelisted again. -/
theorem whitelist_again {dest : ChainId} (hlisted : chainWhitelisted dest s = true)
    (origin : Origin A) : applyExtrinsic T origin (.whitelistChain dest) s = s := by
  cases hrun : dispatch T (.whitelistChain dest) origin s with
  | error e =>
    unfold applyExtrinsic
    rw [hrun]
  | ok s' =>
    simp only [dispatch, whitelistChain, whitelist, bind_eq_ok, ensure_eq_ok] at hrun
    obtain ⟨_, _, _, _, _, hnew, _⟩ := hrun
    rw [hlisted] at hnew
    cases hnew

omit [DecidableEq A] [DecidableEq O] in
/-- A transfer bumps the nonce of its own destination only. -/
theorem transfer_other_chain (t : Transfer) {chain : ChainId} (hne : chain ≠ t.destId) :
    (applyTransfer t s).chainNonces.lookup chain = s.chainNonces.lookup chain := by
  unfold applyTransfer
  cases hrun : t.run s with
  | error e => rfl
  | ok s' =>
    obtain ⟨nonce, _, hs'⟩ := Transfer.run_ok hrun
    rw [hs']
    exact Finmap.lookup_insert_of_ne _ hne

end XXChain.Chainbridge
