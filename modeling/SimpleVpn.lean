import SimpleVpn.Core.TracedMemory
import SimpleVpn.Core.CStrings
import SimpleVpn.Core.HostWords
import SimpleVpn.Core.Loops
import SimpleVpn.Core.Processes
import SimpleVpn.Core.Networks
import SimpleVpn.Core.Proxies
import SimpleVpn.Core.Lifetimes
import SimpleVpn.Algebra.Keystream
import SimpleVpn.Algebra.OnesComplement
import SimpleVpn.Algebra.Decimal
import SimpleVpn.Algebra.Lines
import SimpleVpn.Concrete.HostInfo
import SimpleVpn.Concrete.AddressScan
import SimpleVpn.Concrete.Utils
import SimpleVpn.Concrete.ErrorDetection
import SimpleVpn.Concrete.Bursts
import SimpleVpn.Concrete.Protocol
import SimpleVpn.Concrete.Packet
import SimpleVpn.Concrete.Printing
import SimpleVpn.Concrete.Programs
import SimpleVpn.Concrete.Mains
import SimpleVpn.Concrete.Resources
import SimpleVpn.Concrete.Stages
import SimpleVpn.Tunnel.Frame
import SimpleVpn.Tunnel.Rewrite
import SimpleVpn.Tunnel.Transit
import SimpleVpn.Tunnel.Hops
import SimpleVpn.Tunnel.RoundTrip
import SimpleVpn.Tunnel.Delivery
import SimpleVpn.Tunnel.Hiding
import SimpleVpn.Tunnel.HeaderSums
import SimpleVpn.Tunnel.StoredSums
import SimpleVpn.Tunnel.WireFormat
import SimpleVpn.Tunnel.Bounds
import SimpleVpn.Tunnel.Construction
import SimpleVpn.Tunnel.Exchange
import SimpleVpn.Tunnel.Lengths
import SimpleVpn.Tunnel.Failures
import SimpleVpn.Tunnel.Sessions
import SimpleVpn.Tunnel.System
import SimpleVpn.Tunnel.Progress
import SimpleVpn.Tunnel.Integrity
import SimpleVpn.Tunnel.Noninterference
import SimpleVpn.Tunnel.Proxy
import SimpleVpn.Tunnel.Disclosure
import SimpleVpn.Tunnel.Erasure
import SimpleVpn.Tunnel.Ownership
import SimpleVpn.Tunnel.Guards
import SimpleVpn.Tunnel.Safety
import SimpleVpn.Tunnel.Forgery
