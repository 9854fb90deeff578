import SecureGateway.Relay.NewestWins
import SecureGateway.Relay.Convergence
import SecureGateway.Auth.Binding
import SecureGateway.Billing.Entitlement
import SecureGateway.Billing.Revocation
import SecureGateway.Auth.Capacity
import SecureGateway.Auth.Desktops
import SecureGateway.Auth.Reuse
import SecureGateway.Billing.Reconcile
import SecureGateway.Relay.Silence
import SecureGateway.Relay.SlotOwnership
import SecureGateway.Auth.PollAuthenticity
import SecureGateway.Billing.ClaimBinding
import SecureGateway.Billing.RetryRounds
import SecureGateway.Auth.StoreEquivalence
import SecureGateway.Relay.Heartbeat
import SecureGateway.Relay.PresenceAtRest
import SecureGateway.Billing.Cutoff
import SecureGateway.Sdk.Erasure
import SecureGateway.Sdk.Connections
import SecureGateway.Sdk.Acknowledgement
import SecureGateway.Sdk.Decoders
import SecureGateway.E2ee.RoundTrip
import SecureGateway.Sdk.IosConnections
import SecureGateway.E2ee.GoAtMostOnce
import SecureGateway.Billing.Grace
import SecureGateway.Auth.SubscriptionStatus
import SecureGateway.Auth.AccountSecrets
import SecureGateway.Auth.DeviceCap
import SecureGateway.Sdk.PrivateHosts
import SecureGateway.Relay.Connect
import SecureGateway.Relay.Expiry
import SecureGateway.Relay.KeySource
