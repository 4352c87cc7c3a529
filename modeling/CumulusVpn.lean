import CumulusVpn.Lib.StepSystem
import CumulusVpn.Lib.Decimal
import CumulusVpn.Lib.Interval
import CumulusVpn.Lib.RuleList
import CumulusVpn.Split.AllowedIps
import CumulusVpn.Mobile.RouteAgreement
import CumulusVpn.Gateway.PollSchedule
import CumulusVpn.Gateway.GrantBounds
import CumulusVpn.Bridge.PayOnce
import CumulusVpn.Bridge.ExactDays
import CumulusVpn.Deploy.PriceRefusal
import CumulusVpn.Bridge.Sizing
import CumulusVpn.Bridge.TransferWall
import CumulusVpn.Bridge.PeriodGrants
import CumulusVpn.Bridge.Redelivery
import CumulusVpn.Bridge.OutpointLedger
import CumulusVpn.Bridge.VoucherAccounting
import CumulusVpn.Bridge.PriceLanguage
import CumulusVpn.Gateway.LimiterAccounts
import CumulusVpn.Gateway.Atomic
import CumulusVpn.Desktop.LeakProtection
import CumulusVpn.Desktop.DisconnectWins
import CumulusVpn.Desktop.DnsUndone
import CumulusVpn.Desktop.OnePolicy
import CumulusVpn.Mobile.SwapHold
import CumulusVpn.Mobile.NewestCommand
import CumulusVpn.Mobile.NewestConnect
import CumulusVpn.Deploy.AppendOnly
import CumulusVpn.Gateway.AddressTxs
import CumulusVpn.Deploy.SigningBytes
import CumulusVpn.Deploy.PriceEnv
import CumulusVpn.Desktop.Roam
import CumulusVpn.Mobile.RouteSubtraction
import CumulusVpn.Lib.SortedSearch
import CumulusVpn.Client.Hops
import CumulusVpn.Client.NestedTunnels
import CumulusVpn.Client.ConfigReaders
import CumulusVpn.Client.Negotiation
import CumulusVpn.Client.RecoveryKey
import CumulusVpn.Bridge.VoucherCodes
import CumulusVpn.Gateway.PeerCacheRoundTrip
import CumulusVpn.Split.CidrGrammar
import CumulusVpn.Split.PunycodeRoundTrip
import CumulusVpn.Split.Reload
import CumulusVpn.Bridge.CoinSelection
import CumulusVpn.Bridge.RedeemBreaker
import CumulusVpn.Gateway.AddressPool
import CumulusVpn.Gateway.EnrollRate
import CumulusVpn.Gateway.ProofOfWork
import CumulusVpn.Gateway.FlowSlots
import CumulusVpn.Gateway.Egress
import CumulusVpn.Gateway.DohBreaker
import CumulusVpn.Desktop.DnsBlock
import CumulusVpn.Gateway.PaymentCode
import CumulusVpn.Mobile.IdentityBackup
import CumulusVpn.Lib.Framing
import CumulusVpn.Transport.Frames
import CumulusVpn.Transport.Session
import CumulusVpn.Transport.Connections
import CumulusVpn.Desktop.HelperPolls
import CumulusVpn.Desktop.HelperReplies
import CumulusVpn.Gateway.DnsTcp
import CumulusVpn.Gateway.DnsUdp
import CumulusVpn.Gateway.Served
import CumulusVpn.Desktop.AddressTexts
