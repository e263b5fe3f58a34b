import XXChain.Lib.Perbill
import XXChain.Lib.Run
import XXChain.Lib.StorageMap
import XXChain.Lib.ThresholdVote
import XXChain.Lib.Currency
import XXChain.Lib.Ledger
import XXChain.Lib.Vesting
import XXChain.Frame
import XXChain.Chainbridge.Model
import XXChain.Chainbridge.SmallStep
import XXChain.Chainbridge.Spending
import XXChain.Chainbridge.Executions
import XXChain.Chainbridge.Genesis
import XXChain.Chainbridge.UserCalls
import XXChain.Chainbridge.HonestRelayers
import XXChain.Chainbridge.TimelyVotes
import XXChain.Chainbridge.Refinement
import XXChain.Chainbridge.AtMostOnce
import XXChain.Chainbridge.CurrentRelayers
import XXChain.Economics.Model
import XXChain.Economics.EraPayout
import XXChain.Economics.RewardsPool
import XXChain.Claims.Model
import XXChain.Claims.Payment
import XXChain.Claims.Accounting
import XXChain.Claims.MoveClaim
import XXChain.Betanet.Model
import XXChain.Betanet.Recorded
import XXChain.Betanet.Enactment
import XXChain.Custody.Model
import XXChain.Custody.Payout
import XXChain.Custody.Books
import XXChain.Custody.EndOfCustody
import XXChain.Custody.Runs
import XXChain.Custody.Schedule
import XXChain.Custody.TotalCustody
import XXChain.Chainbridge.QuorumIntersection
import XXChain.Chainbridge.VoteOrder
import XXChain.Chainbridge.Outcome
import XXChain.Swap.Model
import XXChain.Swap.RemovedResource
import XXChain.Claims.Validation
import XXChain.Claims.Owners
import XXChain.Claims.Preclaims
import XXChain.Betanet.Lifecycle
import XXChain.Custody.PathIndependence
import XXChain.Custody.Registry
import XXChain.Lib.Holding
import XXChain.Betanet.Claimant
import XXChain.Betanet.EnactedOnce
import XXChain.Betanet.Entitlement
import XXChain.Economics.StakeIndependence
import XXChain.Economics.Interest
import XXChain.Betanet.PromisedLock
import XXChain.Claims.ExactPayment
import XXChain.Custody.Conservation
import XXChain.Swap.ExactTransfer
import XXChain.Public.Distribution
import XXChain.Claims.Message
import XXChain.Chainbridge.WorldEffect
import XXChain.Cmix.Model
import XXChain.Runtime.Model
import XXChain.Runtime.Moves
import XXChain.Custody.Bystanders
import XXChain.Runtime.NonTransfer
import XXChain.Chainbridge.ResourceId
import XXChain.Claims.AddressText
import XXChain.Betanet.ClaimsLock
import XXChain.Claims.InstalledSchedules
import XXChain.Chainbridge.OutboundNonces
import XXChain.Chainbridge.VoteLedger
import XXChain.Swap.OutboundNonces
import XXChain.Lib.Trace
import XXChain.Chainbridge.Journal
import XXChain.Runtime.Blocks
import XXChain.Runtime.ClaimOwners
import XXChain.Runtime.Supply
import XXChain.Runtime.PublicFunds
import XXChain.Runtime.Settings
import XXChain.Runtime.Backing
import XXChain.Runtime.Solvency
import XXChain.Migrations.BridgeAdjust
import XXChain.Lib.Buffered
import XXChain.Runtime.MixNetwork
import XXChain.Custody.LockUp
import XXChain.Runtime.Outflow
import XXChain.Runtime.LockUp
import XXChain.Runtime.Deposits
import XXChain.Runtime.Approvals
import XXChain.Lib.Books
import XXChain.Runtime.Books
import XXChain.Runtime.Fees
import XXChain.Runtime.Payable
import XXChain.Runtime.Choices
