import VermouthGateway.Proxy.Limiters

/-!
# The replicated state

`StateContext` maps a port to the proxy on it.  `apply` is the handler of one
committed log entry; it has one case for every kind of entry.

Beside the map the context holds what the process around it does for it:

* the goroutines that `Run` starts.  Each waits on the `Shutdown` channel of
  its proxy; once it has received, it takes its time to shut the listener down
  and then deletes its port from the map;
* which channels were made, and whether the proxy with a channel gets its port
  from the system when it listens.

A channel is unbuffered: a send waits for a goroutine that receives, and a send
or a receive on a nil channel waits for ever.  The lock of the context is only
held around map accesses and is left out of the model, as is logging.
-/

namespace VermouthGateway
namespace Cluster

open Go Proxy

/-- What `Run` leaves running. -/
inductive Goroutine
  | awaitShutdown (port : Int) (shutdown : Nat)
  | shuttingDown (port : Int)
deriving DecidableEq

/-- The goroutine receives on a channel. -/
def Goroutine.receives (shutdown : Nat) : Goroutine → Bool
  | .awaitShutdown _ c => c = shutdown
  | .shuttingDown _ => false

/-- The goroutine once it has received. -/
def Goroutine.received : Goroutine → Goroutine
  | .awaitShutdown port _ => .shuttingDown port
  | .shuttingDown port => .shuttingDown port

structure StateContext where
  httpReverseProxyList : GoMap Int HttpReverseProxy
  goroutines : List Goroutine
  /-- The next channel `make` returns. -/
  nextChan : Nat
  /-- Whether `net.Listen` succeeds for the proxy with this channel. -/
  listens : Nat → Bool

/-- `NewStateContext`. -/
def newStateContext (listens : Nat → Bool) : StateContext where
  httpReverseProxyList := ∅
  goroutines := []
  nextChan := 0
  listens := listens

/-! ## The entries of the log -/

structure AddHttpProxyBody where
  port : Int
  prefixType : String

structure ChangeHttpProxyStateBody where
  port : Int
  state : Int

structure AddHttpProxyPrefixBody where
  port : Int
  static : Bool
  prefixPath : String
  balanceType : String
  proxyPass : List String

structure HttpProxyHostBody where
  port : Int
  prefixPath : String
  host : String

structure HttpBlackListBody where
  port : Int
  ips : List String

structure RemoveHttpProxyPrefixBody where
  port : Int
  prefixPath : String

structure RemoveHttpProxyBody where
  port : Int

structure HttpRateLimiterBody where
  port : Int
  prefixPath : String
  url : String
  type : String
  volumn : Int
  speed : Int

structure HttpChangeStatic where
  port : Int
  prefixPath : String

structure HttpChangeLbBody where
  port : Int
  prefixPath : String
  lb : String

/-- A log entry: its option with the decoded body. -/
inductive LogEntry
  | addHttpProxy (body : AddHttpProxyBody)
  | addHttpProxyPrefix (body : AddHttpProxyPrefixBody)
  | addHttpProxyHost (body : HttpProxyHostBody)
  | addHttpBlackList (body : HttpBlackListBody)
  | rmvHttpProxyPrefix (body : RemoveHttpProxyPrefixBody)
  | rmvHttpProxyHost (body : HttpProxyHostBody)
  | rmvHttpBlackList (body : HttpBlackListBody)
  | rmvHttpProxy (body : RemoveHttpProxyBody)
  | setRateLimiter (body : HttpRateLimiterBody)
  | chgStatic (body : HttpChangeStatic)
  | chgLb (body : HttpChangeLbBody)
  | chgState (body : ChangeHttpProxyStateBody)

/-- The tables of a proxy that the log and the snapshots carry. -/
structure Tables where
  paths : GoMap String (List String)
  balancerType : GoMap String String
  staticMapping : GoMap String Bool
  rateLimiterType : GoMap String (List LimiterInfo)
  record : GoMap String Bool
  available : Bool

def tablesOf (proxy : HttpReverseProxy) : Tables where
  paths := proxy.paths
  balancerType := proxy.balancerType
  staticMapping := proxy.staticMapping
  rateLimiterType := proxy.rateLimiterType
  record := proxy.acl.record
  available := proxy.available

namespace StateContext

/-- Two contexts with the same ports and the same tables on each. -/
def SameTables (ctx ctx' : StateContext) : Prop :=
  ∀ port, (ctx.httpReverseProxyList.lookup port).map tablesOf =
    (ctx'.httpReverseProxyList.lookup port).map tablesOf

/-- Call a method of the proxy on a port, which is nil when there is none. -/
def onProxy {α : Type} (port : Int) (body : Eff HttpReverseProxy α) : Eff StateContext α :=
  focus (fun ctx => ctx.httpReverseProxyList.lookup port)
    (fun proxy ctx =>
      { ctx with httpReverseProxyList := ctx.httpReverseProxyList.insert port proxy }) body

/-! ## Proxies and their goroutines -/

/-- `NewHttpReverseProxy` with a new channel. -/
def makeProxy (args : HttpProxyArgs) : Eff StateContext HttpReverseProxy := do
  let ctx ← get
  let proxy ← ofPure (newHttpReverseProxy args ctx.nextChan)
  set { ctx with nextChan := ctx.nextChan + 1 }
  pure proxy

/-- `AddHttpReverseProxy` on one proxy: a port in use is logged and skipped. -/
def addHttpReverseProxy (proxy : HttpReverseProxy) : Eff StateContext Unit := do
  let ctx ← get
  if proxy.port ∈ ctx.httpReverseProxyList then pure ()
  else
    set { ctx with
      httpReverseProxyList := ctx.httpReverseProxyList.insert proxy.port proxy }

/-- `checkAndCreate`. -/
def checkAndCreate (port : Int) : Eff StateContext Unit := do
  let ctx ← get
  if port ∈ ctx.httpReverseProxyList then pure ()
  else
    let httpProxy ← makeProxy ⟨port, "hash-prefixer", []⟩
    addHttpReverseProxy httpProxy

/-- `Run`: listen, serve, and start the goroutine that waits for the shutdown.
Nothing is ever received on a nil channel. -/
def runProxy (proxy : HttpReverseProxy) : Eff StateContext Unit := do
  let ctx ← get
  match proxy.shutdown with
  | none => pure ()
  | some shutdown =>
      -- a port that cannot be listened on is logged, and the proxy stays without a goroutine
      if ctx.listens shutdown then
        set { ctx with
          goroutines := ctx.goroutines ++ [Goroutine.awaitShutdown proxy.port shutdown] }
      else pure ()

/-- `proxy.Shutdown <- struct{}{}`. -/
def send (shutdown : Option Nat) : Eff StateContext Unit := do
  let ctx ← get
  match shutdown.bind fun c => ctx.goroutines.find? (Goroutine.receives c) with
  -- no goroutine receives: an unbuffered send waits
  | none => block
  | some g => set { ctx with goroutines := ctx.goroutines.erase g ++ [g.received] }

/-- `Close` of the proxy on a port. -/
def close (port : Int) : Eff StateContext Unit := do
  let proxy ← onProxy port get
  send proxy.shutdown

/-- The end of a shutdown: `delete(vermouth.Ctx.HttpReverseProxyList, proxy.Port)`. -/
def finishShutdown (port : Int) (ctx : StateContext) : StateContext :=
  { ctx with
    httpReverseProxyList := ctx.httpReverseProxyList.erase port
    goroutines := ctx.goroutines.erase (.shuttingDown port) }

/-- `changeState` of the proxy on a port. -/
def changeState (port state : Int) : Eff StateContext Unit :=
  if state = 1 then onProxy port HttpReverseProxy.start
  else if state = 2 then onProxy port HttpReverseProxy.stop
  -- every other state closes, not only 3
  else close port

/-- A request that arrives at the proxy on a port.  The server recovers from a
panic of the handler, so what the request did stays done. -/
def serve (port : Int) (peerAvailable : Bool) (allow : QpsRateLimiter → Bool)
    (r : Utils.Request) (ctx : StateContext) : StateContext :=
  memory (EStateM.run (onProxy port (HttpReverseProxy.serveHTTP peerAvailable allow r)) ctx)

/-! ## The handlers of the log entries -/

def handleAddHttpProxy (body : AddHttpProxyBody) : Eff StateContext Unit := do
  let newHttpProxy ← makeProxy ⟨body.port, body.prefixType, []⟩
  addHttpReverseProxy newHttpProxy
  -- run even when the port was in use and the new proxy is not in the map
  runProxy newHttpProxy

def handleAddHttpProxyPrefix (body : AddHttpProxyPrefixBody) : Eff StateContext Unit :=
  onProxy body.port
    (HttpReverseProxy.addPrefix body.prefixPath body.balanceType body.proxyPass body.static)

def handleAddHttpHost (body : HttpProxyHostBody) : Eff StateContext Unit :=
  onProxy body.port (HttpReverseProxy.addHost body.prefixPath body.host)

def handleAddBlackList (body : HttpBlackListBody) : Eff StateContext Unit :=
  onProxy body.port (HttpReverseProxy.addBlackList body.ips)

def handleRemoveHttpProxyPrefix (body : RemoveHttpProxyPrefixBody) : Eff StateContext Unit :=
  onProxy body.port (HttpReverseProxy.removePrefix body.prefixPath)

def handleRemoveHttpProxyHost (body : HttpProxyHostBody) : Eff StateContext Unit :=
  onProxy body.port (HttpReverseProxy.removeHost body.prefixPath body.host)

def handleRemoveHttpBlackList (body : HttpBlackListBody) : Eff StateContext Unit :=
  onProxy body.port (HttpReverseProxy.removeBlackList body.ips)

def handleRemoveHttpProxy (body : RemoveHttpProxyBody) : Eff StateContext Unit := do
  -- the send comes first, so a proxy that nobody runs is never deleted
  close body.port
  modify fun ctx =>
    { ctx with httpReverseProxyList := ctx.httpReverseProxyList.erase body.port }

def handleSetRateLimiter (body : HttpRateLimiterBody) : Eff StateContext Unit :=
  onProxy body.port
    (HttpReverseProxy.setRateLimit body.prefixPath body.url body.type body.volumn body.speed)

def handleChangeStatic (body : HttpChangeStatic) : Eff StateContext Unit :=
  onProxy body.port (HttpReverseProxy.changeStatic body.prefixPath)

def handleChangeLb (body : HttpChangeLbBody) : Eff StateContext Unit :=
  onProxy body.port (HttpReverseProxy.changeLb body.prefixPath body.lb)

def handleChangeState (body : ChangeHttpProxyStateBody) : Eff StateContext Unit :=
  changeState body.port body.state

/-- `Apply` on a decoded entry. -/
def apply : LogEntry → Eff StateContext Unit
  | .addHttpProxy body => handleAddHttpProxy body
  | .addHttpProxyPrefix body => handleAddHttpProxyPrefix body
  | .addHttpProxyHost body => handleAddHttpHost body
  | .addHttpBlackList body => handleAddBlackList body
  | .rmvHttpProxyPrefix body => handleRemoveHttpProxyPrefix body
  | .rmvHttpProxyHost body => handleRemoveHttpProxyHost body
  | .rmvHttpBlackList body => handleRemoveHttpBlackList body
  | .rmvHttpProxy body => handleRemoveHttpProxy body
  | .setRateLimiter body => handleSetRateLimiter body
  | .chgStatic body => handleChangeStatic body
  | .chgLb body => handleChangeLb body
  | .chgState body => handleChangeState body

/-! ## Start from a configuration -/

/-- One proxy of the configuration: built, added and run. -/
def bootProxy (args : HttpProxyArgs) : Eff StateContext Unit := do
  let ctx ← get
  let proxy ← ofPure (buildHttpReverseProxy args ctx.nextChan)
  set { ctx with nextChan := ctx.nextChan + 1 }
  -- a repeated port keeps the first proxy of the configuration
  addHttpReverseProxy proxy

/-- The first start of a node: the proxies of the configuration are added to a
new context, and `Run` starts those that are in it. -/
def boot (confs : List HttpProxyArgs) (order : RangeOrder Int HttpReverseProxy) :
    Eff StateContext Unit := do
  forEach confs bootProxy
  let ctx ← get
  forEach (order.keys ctx.httpReverseProxyList) fun port =>
    match ctx.httpReverseProxyList.lookup port with
    | none => pure ()
    | some proxy => runProxy proxy

end StateContext
end Cluster
end VermouthGateway
