import Karma.IdentityRegistry.Integrity
import Karma.Bilateral.Allowances
import Karma.Bilateral.Tokens
import Karma.Bilateral.Exits
import Karma.Bilateral.Disputes
import Karma.EmergencyFreeze.Guard
import Karma.AttestationGateway.Stakes
import Karma.Attestation.Tasks
import Karma.Fees.Payable
import Karma.VerifierBond.Vouching
import Karma.VerifierRegistry.Activation
import Karma.AdminTimelock.Consent
import Karma.Settlement.Undo
import Karma.Settlement.Outcome
import Karma.EscrowServer.Release
import Karma.Operator.Nonce
import Karma.Capacity.Mirror
import Karma.Capacity.Vouchers
import Karma.EscrowServer.Quota
import Karma.EscrowServer.Bindings
import Karma.Verification.Aggregator
import Karma.Arbitration.Panel
import Karma.Arbitration.Appeals
import Karma.Settlement.Channel
import Karma.Delivery.Sweep
import Karma.RuntimeKey.Replay
import Karma.RuntimeKey.Binding
import Karma.A2A.Tasks
import Karma.MiniApp.Identities
import Karma.MiniApp.Policies
import Karma.Pairing.Claim
import Karma.Usage.Charges
import Karma.Usage.Collection
import Karma.Profile.Vouchers
import Karma.Billing.Machine
import Karma.Slashing.Reversal
import Karma.Payments.Totals
import Karma.RuntimeKey.NonceLog
import Karma.Spending.Daily
import Karma.WalletLock.Stake
import Karma.Capacity.AutoFund
import Karma.WalletLock.Backing
import Karma.Settlement.CycleGuard
import Karma.TrustLedger.Chain
import Karma.Arbitration.Split
import Karma.Progress.Curve
import Karma.EscrowLedger.Shares
