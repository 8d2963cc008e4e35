import WorkspaceProxy.Conc.System
import WorkspaceProxy.Go.Strings
import WorkspaceProxy.Go.HostPort
import WorkspaceProxy.Go.NetIP
import WorkspaceProxy.Conc.Sockets
import WorkspaceProxy.SshServer.Config
import WorkspaceProxy.SshServer.Forward
import WorkspaceProxy.SshServer.ForwardTable
import WorkspaceProxy.SshServer.ForwardSafety
import WorkspaceProxy.SshServer.ForwardClosing
import WorkspaceProxy.SshServer.ForwardOrphans
import WorkspaceProxy.SshServer.ForwardTeardown
import WorkspaceProxy.SshServer.SessionCmd
import WorkspaceProxy.Conc.Fair
import WorkspaceProxy.SshServer.Session
import WorkspaceProxy.SshServer.SessionLifecycle
import WorkspaceProxy.SshServer.SessionGroup
import WorkspaceProxy.Conc.Atomic
import WorkspaceProxy.Conc.Tally
import WorkspaceProxy.Proxy.SessionManager
import WorkspaceProxy.SshServer.SessionEnd
import WorkspaceProxy.SshServer.SessionLimit
import WorkspaceProxy.SshServer.SessionFleet
import WorkspaceProxy.Conc.Mutex
import WorkspaceProxy.Proxy.Session
import WorkspaceProxy.Conc.Relay
import WorkspaceProxy.Proxy.SessionStream
import WorkspaceProxy.Go.Duration
import WorkspaceProxy.Proxy.Config
import WorkspaceProxy.Proxy.Connections
import WorkspaceProxy.Proxy.Capacity
import WorkspaceProxy.Conc.Disk
import WorkspaceProxy.SshServer.HostKey
import WorkspaceProxy.SshServer.HostKeyCrash
import WorkspaceProxy.SshServer.HostKeyRace
import WorkspaceProxy.Proxy.TargetHealth
import WorkspaceProxy.Proxy.TargetHealthStop
import WorkspaceProxy.SshServer.ForwardRequest
import WorkspaceProxy.Proxy.TargetHealthStart
import WorkspaceProxy.SshServer.SessionResize
import WorkspaceProxy.Go.Environ
import WorkspaceProxy.SshServer.Environment
import WorkspaceProxy.SshServer.HomeDir
import WorkspaceProxy.Go.Json
import WorkspaceProxy.Go.Bufio
import WorkspaceProxy.Proxy.Probe
import WorkspaceProxy.Proxy.HealthReport
import WorkspaceProxy.Go.Filepath
import WorkspaceProxy.Go.Walk
import WorkspaceProxy.SshServer.HostKeyPath
import WorkspaceProxy.Go.Copy
import WorkspaceProxy.Proxy.Tunnels
import WorkspaceProxy.SshServer.SessionProcesses
import WorkspaceProxy.SshServer.ForwardRelay
import WorkspaceProxy.SshServer.SessionStreams
import WorkspaceProxy.Go.Ticker
import WorkspaceProxy.Proxy.Keepalive
import WorkspaceProxy.Proxy.ProbeSchedule
import WorkspaceProxy.SshServer.Startup
import WorkspaceProxy.SshServer.HostKeyHistory
import WorkspaceProxy.Proxy.SessionClock
import WorkspaceProxy.Commands
import WorkspaceProxy.SshServer.Command
