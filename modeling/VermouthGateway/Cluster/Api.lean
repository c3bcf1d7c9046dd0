import VermouthGateway.Cluster.Context

/-!
# The management interface

The methods behind the management interface of a node.  Each makes its checks
on the state of the node and then, by the mode the node runs in, either changes
that state or appends an entry to the log.

Appending is modelled as it succeeds: raft commits the entry, in order.  The
entry is applied later by `StateContext.apply`.
-/

namespace VermouthGateway
namespace Cluster

open Go Proxy Balancing

/-- `Vermouth.Mode`. -/
inductive Mode
  | stand
  | cluster
deriving DecidableEq

/-- The error values of the interface. -/
inductive ApiError
  | httpProxyNotExists
  | httpProxyAlreayExists
  | prefixAlreadyExists
  | prefixNotExists
  | hostNotExists
  | hostAlreadyExists
  | prefixHaveNoBalancer
deriving DecidableEq, Repr

def ApiError.message : ApiError → String
  | .httpProxyNotExists => "http proxy not exists"
  | .httpProxyAlreayExists => "http proxy already exists"
  | .prefixAlreadyExists => "prefix already exixts"
  | .prefixNotExists => "prefix not exists"
  | .hostNotExists => "host not exists"
  | .hostAlreadyExists => "host already exists"
  | .prefixHaveNoBalancer => "prefix have no balancer"

structure Vermouth where
  mode : Mode
  ctx : StateContext
  /-- The committed entries that were not applied yet, oldest first. -/
  raftLog : List LogEntry

namespace Vermouth

/-- Work on the state of the node. -/
def onCtx {α : Type} (body : Eff StateContext α) : Eff Vermouth α :=
  focus (fun v => some v.ctx) (fun ctx v => { v with ctx := ctx }) body

/-- `AppendLogEntry`. -/
def appendLogEntry (entry : LogEntry) : Eff Vermouth Unit :=
  modify fun v => { v with raftLog := v.raftLog ++ [entry] }

/-- The switch at the end of the methods. -/
def byMode (stand : Eff StateContext Unit) (entry : LogEntry) :
    Eff Vermouth (Except ApiError Unit) := do
  let v ← get
  match v.mode with
  | .stand => onCtx stand
  | .cluster => appendLogEntry entry
  pure (.ok ())

/-- The methods that look the proxy up and check it before the switch. -/
def withProxy (port : Int) (check : HttpReverseProxy → Option ApiError)
    (stand : Eff StateContext Unit) (entry : LogEntry) :
    Eff Vermouth (Except ApiError Unit) := do
  let v ← get
  -- both modes look the port up on the node that was called
  match v.ctx.httpReverseProxyList.lookup port with
  | none => pure (.error .httpProxyNotExists)
  | some proxy =>
      match check proxy with
      | some e => pure (.error e)
      | none => byMode stand entry

/-- The methods that look the proxy up in stand mode only. -/
def standProxy (port : Int) (stand : Eff StateContext Unit) (entry : LogEntry) :
    Eff Vermouth (Except ApiError Unit) := do
  let v ← get
  match v.mode with
  | .stand =>
      if port ∈ v.ctx.httpReverseProxyList then
        onCtx stand
        pure (.ok ())
      else pure (.error .httpProxyNotExists)
  | .cluster =>
      -- appended without a look at the state
      appendLogEntry entry
      pure (.ok ())

def addHttpProxyPrefix (body : AddHttpProxyPrefixBody) : Eff Vermouth (Except ApiError Unit) :=
  withProxy body.port
    (fun proxy => if proxy.prefixExists body.prefixPath then some .prefixAlreadyExists else none)
    (StateContext.onProxy body.port
      (HttpReverseProxy.addPrefix body.prefixPath body.balanceType body.proxyPass body.static))
    (.addHttpProxyPrefix body)

def removeHttpProxyPrefix (body : RemoveHttpProxyPrefixBody) :
    Eff Vermouth (Except ApiError Unit) :=
  withProxy body.port
    (fun proxy => if !proxy.prefixExists body.prefixPath then some .prefixNotExists else none)
    (StateContext.onProxy body.port (HttpReverseProxy.removePrefix body.prefixPath))
    (.rmvHttpProxyPrefix body)

/-- The check is the same as that of `addHttpProxyHost`. -/
def removeHttpProxyHost (body : HttpProxyHostBody) : Eff Vermouth (Except ApiError Unit) :=
  withProxy body.port
    -- no `!` before `HostExists`: the error is returned for the hosts that do exist
    (fun proxy => if proxy.hostExists body.prefixPath body.host then some .hostNotExists else none)
    (StateContext.onProxy body.port (HttpReverseProxy.removeHost body.prefixPath body.host))
    (.rmvHttpProxyHost body)

def addHttpProxyHost (body : HttpProxyHostBody) : Eff Vermouth (Except ApiError Unit) :=
  withProxy body.port
    (fun proxy =>
      if proxy.hostExists body.prefixPath body.host then some .hostAlreadyExists else none)
    (StateContext.onProxy body.port (HttpReverseProxy.addHost body.prefixPath body.host))
    (.addHttpProxyHost body)

def addBlackList (body : HttpBlackListBody) : Eff Vermouth (Except ApiError Unit) :=
  standProxy body.port
    (StateContext.onProxy body.port (HttpReverseProxy.addBlackList body.ips))
    (.addHttpBlackList body)

def removeBlackList (body : HttpBlackListBody) : Eff Vermouth (Except ApiError Unit) :=
  standProxy body.port
    (StateContext.onProxy body.port (HttpReverseProxy.removeBlackList body.ips))
    (.rmvHttpBlackList body)

def setRateLimiter (body : HttpRateLimiterBody) : Eff Vermouth (Except ApiError Unit) :=
  withProxy body.port (fun _ => none)
    (StateContext.onProxy body.port
      (HttpReverseProxy.setRateLimit body.prefixPath body.url body.type body.volumn body.speed))
    (.setRateLimiter body)

/-- `addHttpProxy`: in stand mode the new proxy is run before the method
returns. -/
def addHttpProxy (body : AddHttpProxyBody) : Eff Vermouth (Except ApiError Unit) := do
  let v ← get
  if body.port ∈ v.ctx.httpReverseProxyList then pure (.error .httpProxyAlreayExists)
  else
    byMode
      (do
        let proxy ← StateContext.makeProxy ⟨body.port, body.prefixType, []⟩
        StateContext.addHttpReverseProxy proxy
        StateContext.runProxy proxy)
      (.addHttpProxy body)

def changeStatic (body : HttpChangeStatic) : Eff Vermouth (Except ApiError Unit) :=
  withProxy body.port (fun _ => none)
    (StateContext.onProxy body.port (HttpReverseProxy.changeStatic body.prefixPath))
    (.chgStatic body)

/-- `changeLb`: asks the router, and returns early when the balancer has the
mode already. -/
def changeLb (body : HttpChangeLbBody) : Eff Vermouth (Except ApiError Unit) := do
  let v ← get
  match v.ctx.httpReverseProxyList.lookup body.port with
  | none => pure (.error .httpProxyNotExists)
  | some proxy =>
      match proxy.prefixMapping with
      | none => panic .nilDereference
      | some p =>
          match p.getBalancer body.prefixPath with
          | none => pure (.error .prefixHaveNoBalancer)
          | some b =>
              -- the algorithm is the one in use already
              if b.mode = body.lb then pure (.ok ())
              else
                byMode
                  (StateContext.onProxy body.port
                    (HttpReverseProxy.changeLb body.prefixPath body.lb))
                  (.chgLb body)

def changeProxyAvailable (body : ChangeHttpProxyStateBody) :
    Eff Vermouth (Except ApiError Unit) :=
  withProxy body.port (fun _ => none)
    (StateContext.changeState body.port body.state)
    (.chgState body)

end Vermouth

/-- A call of the interface. -/
inductive ApiRequest
  | addHttpProxy (body : AddHttpProxyBody)
  | addHttpProxyPrefix (body : AddHttpProxyPrefixBody)
  | removeHttpProxyPrefix (body : RemoveHttpProxyPrefixBody)
  | addHttpProxyHost (body : HttpProxyHostBody)
  | removeHttpProxyHost (body : HttpProxyHostBody)
  | addBlackList (body : HttpBlackListBody)
  | removeBlackList (body : HttpBlackListBody)
  | setRateLimiter (body : HttpRateLimiterBody)
  | changeStatic (body : HttpChangeStatic)
  | changeLb (body : HttpChangeLbBody)
  | changeProxyAvailable (body : ChangeHttpProxyStateBody)

def ApiRequest.call : ApiRequest → Eff Vermouth (Except ApiError Unit)
  | .addHttpProxy body => Vermouth.addHttpProxy body
  | .addHttpProxyPrefix body => Vermouth.addHttpProxyPrefix body
  | .removeHttpProxyPrefix body => Vermouth.removeHttpProxyPrefix body
  | .addHttpProxyHost body => Vermouth.addHttpProxyHost body
  | .removeHttpProxyHost body => Vermouth.removeHttpProxyHost body
  | .addBlackList body => Vermouth.addBlackList body
  | .removeBlackList body => Vermouth.removeBlackList body
  | .setRateLimiter body => Vermouth.setRateLimiter body
  | .changeStatic body => Vermouth.changeStatic body
  | .changeLb body => Vermouth.changeLb body
  | .changeProxyAvailable body => Vermouth.changeProxyAvailable body

end Cluster
end VermouthGateway
