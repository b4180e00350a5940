import NetworkProjects.Router.Accounting
import NetworkProjects.Router.Provenance
import NetworkProjects.Router.Ttl
import NetworkProjects.Router.GiveUp
import NetworkProjects.Router.NoRoute
import NetworkProjects.Router.Pending
import NetworkProjects.Router.Interleaving
import NetworkProjects.Router.LongestPrefix
import NetworkProjects.Router.LoadRt
import NetworkProjects.Router.Transparent
import NetworkProjects.Router.ArpFrames
import NetworkProjects.Router.EchoReply
import NetworkProjects.Router.PortUnreachable
import NetworkProjects.Router.Sweep
import NetworkProjects.Router.VnsComm
import NetworkProjects.Router.Freshness
import NetworkProjects.Router.Ping
import NetworkProjects.Router.PrintRt
import NetworkProjects.Router.Startup
import NetworkProjects.Router.Dump
import NetworkProjects.Proxy.ErrorPath
import NetworkProjects.Proxy.AbsoluteGet
import NetworkProjects.Transport.Delivery
import NetworkProjects.Transport.Window
import NetworkProjects.Transport.Sequence
import NetworkProjects.Proxy.Printing
import NetworkProjects.Proxy.Chain
import NetworkProjects.Transport.ShortSegments
import NetworkProjects.Transport.Rest
import NetworkProjects.WebServer.FileOpen
import NetworkProjects.WebServer.Response
import NetworkProjects.FileTransfer.Transfer
import NetworkProjects.Measurement.Flows
import NetworkProjects.Measurement.Updates
