import SimpleVpn.Concrete.Stages
import SimpleVpn.Tunnel.Exchange

/-!
# Sessions

A session is one start of the three programs for an exchange: the hosts are in the
table, both listeners are up, and every call after that succeeds.  What each of the
programs receives is as much of what its peer hands over as the exchange says.
-/

namespace SimpleVpn.Sessions

open SimpleVpn.HostInfo SimpleVpn.Protocol SimpleVpn.Mains SimpleVpn.Stages
open SimpleVpn.Frame SimpleVpn.Exchange

/-- Three programs started for the hosts of an exchange, with its messages, and
the outcomes of their calls before the first packet. -/
structure Session (setting : Setting) where
  clientArgv : List (List UInt8)
  destHostName : List UInt8
  serverArgv : List (List UInt8)
  serverListener : Listener
  serverSocket : ℕ
  destArgv : List (List UInt8)
  destListener : Listener
  destSocket : ℕ
  resolves : Resolves clientArgv destHostName
    ⟨(DottedQuad.ofAddress setting.client).text,
      (DottedQuad.ofAddress setting.server).text,
      (DottedQuad.ofAddress setting.dest).text⟩
  serverAccepts : Accepts serverArgv serverListener (some serverSocket)
    (DottedQuad.ofAddress setting.server).text serverSocket
  destAccepts : Accepts destArgv destListener (some destSocket)
    (DottedQuad.ofAddress setting.dest).text destSocket
  request_eq : setting.request = requestPayload
  requestFlags_eq : setting.requestFlags = tcpFlagSyn
  response_eq : setting.response = responseMsg
  responseFlags_eq : setting.responseFlags = tcpFlagAck

section Session

variable {setting : Setting} (session : Session setting)

/-- The client, with the bytes that the server hands over for it. -/
def Session.client (reply : List UInt8) : ClientRun where
  order := setting.order
  heap := setting.clientHeap
  key := setting.key
  argv := session.clientArgv
  destHostName := session.destHostName
  socket := some setting.clientFd
  converts := true
  connects := true
  sends := true
  response := some (reply.take setting.replyCount)

/-- The server, with what client and destination hand over. -/
def Session.server (request response : List UInt8) : ServerRun where
  order := setting.order
  heap := setting.serverHeap
  key := setting.key
  argv := session.serverArgv
  listener := session.serverListener
  accept := some session.serverSocket
  request := some (request.take setting.requestCount)
  socket := some setting.clientFd
  converts := true
  connects := true
  forwards := true
  response := some (response.take setting.responseCount)
  replies := true

/-- The destination, with what the server forwards. -/
def Session.destination (forward : List UInt8) : DestinationRun where
  order := setting.order
  heap := setting.destHeap
  argv := session.destArgv
  listener := session.destListener
  accept := some session.destSocket
  request := some (forward.take setting.forwardCount)
  sends := true

end Session

/-- A session of the first three hosts. -/
def hostsSession : Session hostsSetting where
  clientArgv := [chars "./client", chars "h1", chars "h2"]
  destHostName := chars "h3"
  serverArgv := [chars "./server", chars "h2"]
  serverListener := ⟨some 3, true, true, true⟩
  serverSocket := 4
  destArgv := [chars "./destination", chars "h3"]
  destListener := ⟨some 3, true, true, true⟩
  destSocket := 4
  resolves := by constructor <;> decide
  serverAccepts := ⟨rfl, by decide, ⟨3, rfl, rfl, rfl, rfl⟩, rfl⟩
  destAccepts := ⟨rfl, by decide, ⟨3, rfl, rfl, rfl, rfl⟩, rfl⟩
  request_eq := rfl
  requestFlags_eq := rfl
  response_eq := rfl
  responseFlags_eq := rfl

end SimpleVpn.Sessions
