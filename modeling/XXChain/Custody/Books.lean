import XXChain.Custody.Payout

/-!
# XXChain — a reference for the pallets the custody calls

The reference ledger next to what the custody sees of the other pallets: the stakes, the
amounts that votes lock, and the proxies. A stake and a vote each lock the account
and keep it from dying.

* **`Books.config_lawful`** — with these pallets the custody is configured lawfully.
-/

namespace XXChain.Custody

open Function

variable {A : Type} [DecidableEq A]

structure Books (A : Type) where
  ledger : Ledger A
  stakes : StorageMap A Nat
  votes : StorageMap A Nat
  proxies : StorageMap A (List (ProxyDefinition A) × Nat)

namespace Books

def ledgerPart : Part (Books A) (Ledger A) where
  get b := b.ledger
  put b l := { b with ledger := l }
  get_put _ _ := rfl
  put_get _ := rfl

/-- What is locked and referred to when the stake of an account is `stake`. -/
def locked (b : Books A) (a : A) (stake : Option Nat) : AccountData :=
  { b.ledger.account a with
    frozen := max (stake.getD 0) ((b.votes.lookup a).getD 0)
    canDecProvider := stake.isNone && (b.votes.lookup a).isNone }

def staking : Staking A (Books A) where
  bonded b a := (b.stakes.lookup a).isSome
  otherLocks b a := (b.votes.lookup a).getD 0
  otherwiseMayDie b a := (b.votes.lookup a).isNone
  forceUnstake b a :=
    some { b with stakes := b.stakes.erase a, ledger := b.ledger.set a (b.locked a none) }
  bond b a _ v :=
    if (b.stakes.lookup a).isSome then none
    else some { b with
      stakes := b.stakes.insert a (min v (b.ledger.account a).free)
      ledger := b.ledger.set a (b.locked a (some (min v (b.ledger.account a).free))) }
  bondExtra b a v :=
    (b.stakes.lookup a).map fun stake =>
      { b with
        stakes := b.stakes.insert a (min (stake + v) (b.ledger.account a).free)
        ledger := b.ledger.set a
          (b.locked a (some (min (stake + v) (b.ledger.account a).free))) }
  setController b a _ := if (b.stakes.lookup a).isSome then some b else none

/-- Every proxy costs the same deposit, and every account has at most one. -/
def proxyPallet (pureAccount : A → Nat → A) (cost : Nat) : Proxies A (Books A) where
  pureAccount owner _ index := pureAccount owner index
  proxies b a := (b.proxies.lookup a).getD ([], 0)
  remove b a := { b with proxies := b.proxies.erase a }
  addProxyDelegate b a delegate proxyType delay :=
    if (b.proxies.lookup a).isSome ∨ (b.ledger.account a).liquid < cost then none
    else some { b with
      proxies := b.proxies.insert a ([{ delegate, proxyType, delay }], cost)
      ledger := b.ledger.set a { b.ledger.account a with
        free := (b.ledger.account a).free - cost
        reserved := (b.ledger.account a).reserved + cost } }

/-- The custody with the constants of the xxnetwork runtime. -/
def config (ed cost : Nat) (pureAccount : A → Nat → A) : Config A (Books A) where
  currency := (Ledger.currency ed).along ledgerPart
  staking := staking
  proxies := proxyPallet pureAccount cost
  payoutFrequency := 100800
  custodyDuration := 15778800
  governanceCustodyDuration := 5259600
  custodyProxy := .voting
  adminOrigin _ := false

theorem config_lawful {ed : Nat} (hed : 0 < ed) (cost : Nat) (pureAccount : A → Nat → A) :
    (config ed cost pureAccount).Lawful where
  currency := (Ledger.currency_lawful hed).along ledgerPart
  forceUnstake_account := by
    intro b a b' h
    cases h
    show (b.ledger.set a (b.locked a none)).account = _
    rw [Ledger.account_set, locked, Option.getD_none, Nat.zero_max]
    rfl
  forceUnstake_proxies := by
    intro b a b' h
    cases h
    rfl
  remove_account := fun _ _ => rfl

end Books

/-- The custody account of `who` is `10 * who`, its reserve account the one after. -/
def mockConfig : Config Nat (Books Nat) :=
  Books.config 1000000000 2 fun who index => 10 * who + index

end XXChain.Custody
