import VermouthGateway.Acl.RadixTree
import VermouthGateway.Proxy.HashPrefixer
import VermouthGateway.Proxy.RateLimiter
import Mathlib.Data.String.Basic

/-!
# The reverse proxy

`HttpReverseProxy` is the state of the proxy on one port, with the methods that
change it and `ServeHTTP`.  The exported fields are the tables that are written
to a snapshot; `rateLimiters` and `prefixMapping` are rebuilt from them and are
nil after decoding.

`Shutdown` is a channel; a channel is a number handed out by the context, and a
nil channel is `none`.  Sending the response back and the request on the wire
are not modelled: `Response` says what `ServeHTTP` decided.
-/

namespace VermouthGateway
namespace Proxy

open Go Balancing Acl

/-- What a configuration says of one prefix. -/
structure HttpProxyPathArgs where
  balanceMode : String
  pattern : String
  static : Bool
  hosts : List String

structure HttpProxyArgs where
  port : Int
  prefixerType : String
  paths : List HttpProxyPathArgs

structure HttpReverseProxy where
  mu : RWMutex
  port : Int
  prefixerType : String
  paths : GoMap String (List String)
  balancerType : GoMap String String
  rateLimiterType : GoMap String (List LimiterInfo)
  staticMapping : GoMap String Bool
  acl : RadixTree
  available : Bool
  rateLimiters : Option (GoMap String QpsRateLimiter)
  prefixMapping : Option HashPrefixer
  shutdown : Option Nat

instance : HasMutex HttpReverseProxy where
  mutex proxy := proxy.mu
  setMutex mu proxy := { proxy with mu := mu }
  mutex_setMutex _ _ := rfl
  setMutex_setMutex _ _ _ := rfl
  setMutex_mutex _ := rfl

/-- `NewHttpReverseProxy` with the channel made for it; an unknown prefixer
type is fatal. -/
def newHttpReverseProxy (args : HttpProxyArgs) (shutdown : Nat) :
    Except Halt HttpReverseProxy :=
  match buildPrefixer args.prefixerType with
  | none => .error (.panic (.fatal "illgeal prefixer type"))
  | some p => .ok
      { mu := .free
        port := args.port
        prefixerType := args.prefixerType
        balancerType := ∅
        paths := ∅
        rateLimiterType := ∅
        staticMapping := ∅
        acl := newRadixTree
        available := true
        rateLimiters := some ∅
        prefixMapping := some p
        shutdown := some shutdown }

/-- The url a limiter is stored under. -/
def compeleteUrl (prefixPath apiPath : String) : String :=
  if prefixPath = "/" then apiPath else prefixPath ++ apiPath

/-- What became of a request. -/
inductive Response
  | notFound
  | forbidden (body : String)
  | failed (body : String)
  | forwarded (host : String) (port : Int) (path : String)
deriving DecidableEq

/-- `ForbiddenAccessSystem`. -/
def forbiddenAccessSystem : String := "You're forbidden to access the system"

/-- `IllegalPortError`. -/
def illegalPortError : String := "illegal server Port, please ensure it's integer"

/-- `forwardToSpecficPath`, up to the request it sends. -/
def forwardToSpecficPath (rawPath : String) : Response :=
  let serverAddr := String.ofList (rawPath.toList.takeWhile (· != '/'))
  let apiUrl := String.ofList (rawPath.toList.dropWhile (· != '/'))
  match split serverAddr ':' with
  | [] => .forwarded "" 0 apiUrl
  | [host] => .forwarded host 80 apiUrl
  | host :: port :: _ =>
      match atoi port with
      | none => .failed illegalPortError
      | some port => .forwarded host port apiUrl

namespace HttpReverseProxy

/-- Call a method of the prefixer, an interface that is nil until it is built. -/
def onPrefixer {α : Type} (body : Eff HashPrefixer α) : Eff HttpReverseProxy α :=
  focus prefixMapping (fun p proxy => { proxy with prefixMapping := some p }) body

/-- `proxy.prefixMapping.GetBalancer(prefix)` where the balancer is used at
once, so that a nil one is dereferenced. -/
def getBalancer (prefixPath : String) : Eff HttpReverseProxy Balancer :=
  onPrefixer (HashPrefixer.withBalancer prefixPath get)

def start : Eff HttpReverseProxy Unit := withLock do
  modify fun proxy => { proxy with available := true }

def stop : Eff HttpReverseProxy Unit := withLock do
  modify fun proxy => { proxy with available := false }

def addPrefix (prefixPath algo : String) (hosts : List String) (isStatic : Bool) :
    Eff HttpReverseProxy Unit := withLock do
  let p ← onPrefixer get
  -- a prefix that is routed is left as it is, whatever the other arguments say
  if prefixPath ∈ p.mapping then pure ()
  else
    modify fun proxy =>
      { proxy with staticMapping := proxy.staticMapping.insert prefixPath isStatic }
    -- an error of `Add` is only logged
    onPrefixer (modify fun p => p.add prefixPath algo hosts)
    modify fun proxy =>
      { proxy with balancerType := proxy.balancerType.insert prefixPath algo }
    -- nil when `Add` has failed, and then dereferenced
    let b ← getBalancer prefixPath
    modify fun proxy => { proxy with paths := proxy.paths.insert prefixPath b.hosts }

def removePrefix (prefixPath : String) : Eff HttpReverseProxy Unit := withLock do
  -- `rateLimiters` by the prefix, although its keys are complete paths; no `StaticMapping`
  modify fun proxy =>
    { proxy with
      paths := proxy.paths.erase prefixPath
      balancerType := proxy.balancerType.erase prefixPath
      rateLimiters := proxy.rateLimiters.map fun limiters => limiters.erase prefixPath
      rateLimiterType := proxy.rateLimiterType.erase prefixPath }
  onPrefixer (modify fun p => p.remove prefixPath)

/-- `GetHosts`, without its read lock. -/
def getHosts (proxy : HttpReverseProxy) (prefixPath : String) : List String :=
  proxy.paths.get prefixPath []

/-- `GetHosts`. -/
def lockedGetHosts (prefixPath : String) : Eff HttpReverseProxy (List String) := withRLock do
  let proxy ← get
  pure (proxy.getHosts prefixPath)

/-- `LoadBalance`: the empty text when the prefix is not routed or has no
host. -/
def loadBalance (prefixPath balanceUrl : String) : Eff HttpReverseProxy String := withRLock do
  let p ← onPrefixer get
  match p.getBalancer prefixPath with
  | none => pure ""
  | some _ =>
      match ← onPrefixer
          (HashPrefixer.withBalancer prefixPath (Balancer.balance balanceUrl none)) with
      | .error _ => pure ""
      | .ok addr => pure addr

/-- Change a balancer and copy its hosts to `Paths`. -/
def updateHosts (prefixPath : String) (body : Eff Balancer Unit) :
    Eff HttpReverseProxy Unit := withLock do
  onPrefixer (HashPrefixer.withBalancer prefixPath body)
  let b ← getBalancer prefixPath
  modify fun proxy => { proxy with paths := proxy.paths.insert prefixPath b.hosts }

def addHost (prefixPath host : String) : Eff HttpReverseProxy Unit :=
  updateHosts prefixPath (Balancer.add host)

def removeHost (prefixPath host : String) : Eff HttpReverseProxy Unit :=
  updateHosts prefixPath (Balancer.remove host)

def prefixExists (proxy : HttpReverseProxy) (prefixPath : String) : Bool :=
  (proxy.paths.lookup prefixPath).isSome

def hostExists (proxy : HttpReverseProxy) (prefixPath host : String) : Bool :=
  host ∈ proxy.paths.get prefixPath []

/-- `checkPrefixExists`: the same test under the lock. -/
def checkPrefixExists (prefixPath : String) : Eff HttpReverseProxy Bool := withLock do
  let proxy ← get
  pure (proxy.prefixExists prefixPath)

/-- Call a method of the access-control tree. -/
def onAcl {α : Type} (body : Eff RadixTree α) : Eff HttpReverseProxy α :=
  focus (fun proxy => some proxy.acl) (fun tree proxy => { proxy with acl := tree }) body

/-- `AddBlackList`: the errors of `Add` are logged and dropped. -/
def addBlackList (ips : List String) : Eff HttpReverseProxy Unit := withLock do
  forEach ips fun ip => onAcl (RadixTree.add ip ip)

/-- `RemoveBlackList`: the errors of `Delete` are logged and dropped. -/
def removeBlackList (ips : List String) : Eff HttpReverseProxy Unit := withLock do
  forEach ips fun ip => onAcl (RadixTree.deleteText ip)

/-- `createRateLimiter`. -/
def createRateLimiter (prefixPath apiPath limiterType : String) (init speed : Int) :
    Eff HttpReverseProxy (Except RateError QpsRateLimiter) := withLock do
  match buildRateLimiter limiterType with
  | .error e => pure (.error e)
  | .ok limiter =>
      let url := compeleteUrl prefixPath apiPath
      let proxy ← get
      match proxy.rateLimiters with
      | none => panic .nilMapWrite
      | some limiters =>
          -- both tables are written before `SetRate`, which divides by the speed
          set { proxy with
            rateLimiters := some (limiters.insert url limiter)
            rateLimiterType := proxy.rateLimiterType.insert prefixPath
              (proxy.rateLimiterType.get prefixPath [] ++
                [LimiterInfo.mk apiPath limiterType init speed]) }
          let limiter ← ofPure (limiter.setRate init speed)
          modify fun proxy =>
            { proxy with
              rateLimiters := proxy.rateLimiters.map fun limiters => limiters.insert url limiter }
          pure (.ok limiter)

/-- The loop of `SetRateLimit` over the recorded infos: the first one of the
path is edited. -/
def setInfo (apiPath : String) (init speed : Int) : List LimiterInfo → List LimiterInfo
  | [] => []
  | info :: infos =>
      if info.url = apiPath then { info with init := init, speed := speed } :: infos
      else info :: setInfo apiPath init speed infos

/-- The recorded infos after that loop. -/
def setInfos (recorded : GoMap String (List LimiterInfo)) (prefixPath apiPath : String)
    (init speed : Int) : GoMap String (List LimiterInfo) :=
  match recorded.lookup prefixPath with
  | none => recorded
  | some infos => recorded.insert prefixPath (setInfo apiPath init speed infos)

/-- `SetRateLimit`. -/
def setRateLimit (prefixPath apiPath limiterType : String) (init speed : Int) :
    Eff HttpReverseProxy Unit := withLock do
  let url := compeleteUrl prefixPath apiPath
  let proxy ← get
  match proxy.rateLimiters.bind fun limiters => limiters.lookup url with
  | none =>
      -- asks for the lock that is held
      let _ ← createRateLimiter prefixPath apiPath limiterType init speed
      pure ()
  | some limiter =>
      -- the infos are pointers, so the table changes although only the info is assigned
      modify fun proxy =>
        { proxy with
          rateLimiterType := setInfos proxy.rateLimiterType prefixPath apiPath init speed }
      let limiter ← ofPure (limiter.setRate init speed)
      modify fun proxy =>
        { proxy with
          rateLimiters := proxy.rateLimiters.map fun limiters => limiters.insert url limiter }

/-- `changeStatic`. -/
def changeStatic (prefixPath : String) : Eff HttpReverseProxy Unit := withLock do
  modify fun proxy =>
    { proxy with
      staticMapping :=
        proxy.staticMapping.insert prefixPath (!proxy.staticMapping.get prefixPath false) }

/-- `changeLb`: remove the prefix and add it again. -/
def changeLb (prefixPath lb : String) : Eff HttpReverseProxy Unit := do
  let b ← getBalancer prefixPath
  let proxy ← get
  removePrefix prefixPath
  addPrefix prefixPath lb b.hosts (proxy.staticMapping.get prefixPath false)

/-- `isStaticResource`. -/
def isStaticResource (proxy : HttpReverseProxy) (prefixPath : String) : Bool :=
  proxy.staticMapping.get prefixPath false

/-- The third step of `ServeHTTP`: a token from the limiter of the path, which
is made when there is none. -/
def takeToken (allow : QpsRateLimiter → Bool) (prefixPath apiPath : String) :
    Eff HttpReverseProxy (Except RateError Unit) := do
  let proxy ← get
  -- the map is read without the lock
  match proxy.rateLimiters.bind fun limiters =>
      limiters.lookup (compeleteUrl prefixPath apiPath) with
  | some limiter => pure (limiter.take allow)
  | none =>
      match ← createRateLimiter prefixPath apiPath "qps" inf inf with
      | .error e => panic (.fatal e.message)
      | .ok limiter => pure (limiter.take allow)

/-- The last step of `ServeHTTP`, once a token was asked for. -/
def answerWith (realPath : String) : Except RateError Unit → Response
  | .error e => .failed e.message
  | .ok () => forwardToSpecficPath realPath

/-- `ServeHTTP`.  `peerAvailable` is `VermouthPeer().Available()`, and `allow`
says which limiters have a token left. -/
def serveHTTP (peerAvailable : Bool) (allow : QpsRateLimiter → Bool) (r : Utils.Request) :
    Eff HttpReverseProxy Response := do
  let proxy ← get
  -- the four answers of the source that come before the limiter, then the limiter
  if !proxy.available || !peerAvailable then pure .notFound
  else if ← ofPure (proxy.acl.accessControl (Utils.remoteIp r)) then
    pure (.forbidden forbiddenAccessSystem)
  else
    match ← onPrefixer (HashPrefixer.mappingPath r.path r) with
    | .error e => pure (.failed e.message)
    | .ok (prefixPath, apiPath, realPath) =>
        if proxy.isStaticResource prefixPath then pure (forwardToSpecficPath realPath)
        else
          let taken ← takeToken allow prefixPath apiPath
          pure (answerWith realPath taken)

/-- One round of the first loop of `Restore`. -/
def restorePrefix (prefixPath : String) (hosts : List String) : Eff HttpReverseProxy Unit := do
  let proxy ← get
  addPrefix prefixPath (proxy.balancerType.get prefixPath "") hosts
    (proxy.staticMapping.get prefixPath false)

/-- One round of the last loop of `Restore`. -/
def restoreLimiters (prefixPath : String) (infos : List LimiterInfo) :
    Eff HttpReverseProxy Unit :=
  forEach infos fun v => createRateLimiter prefixPath v.url v.type v.init v.speed

/-- The second loop of `Restore`: a new tree with the recorded entries. -/
def rebuildAcl (ips : List String) : Except Halt RadixTree :=
  match EStateM.run (forEach ips fun ip => RadixTree.add ip ip) newRadixTree with
  | .ok _ tree => .ok tree
  | .error e _ => .error e

end HttpReverseProxy

/-- The orders in which `Restore` ranges over its maps. -/
structure RestoreOrder where
  paths : RangeOrder String (List String)
  record : RangeOrder String Bool
  limiters : RangeOrder String (List LimiterInfo)

/-- Every map in increasing key order. -/
def RestoreOrder.sorted : RestoreOrder := ⟨.sorted _ _, .sorted _ _, .sorted _ _⟩

namespace HttpReverseProxy

/-- `Restore`; the result is false when the prefixer type is unknown. -/
def restore (order : RestoreOrder) : Eff HttpReverseProxy Bool := do
  let proxy ← get
  match buildPrefixer proxy.prefixerType with
  | none => pure false
  | some p =>
      let paths := proxy.paths
      set { proxy with prefixMapping := some p, paths := ∅ }
      forEach (order.paths.keys paths) fun k => restorePrefix k (paths.get k [])
      let proxy ← get
      -- the record of the decoded tree is read, the tree itself replaced
      let blackList ← ofPure (rebuildAcl (order.record.keys proxy.acl.record))
      modify fun proxy => { proxy with acl := blackList, rateLimiters := some ∅ }
      let proxy ← get
      let recorded := proxy.rateLimiterType
      forEach (order.limiters.keys recorded) fun k => restoreLimiters k (recorded.get k [])
      pure true

end HttpReverseProxy

/-- `BuildHttpReverseProxyFromConfig` on one entry of the configuration. -/
def buildHttpReverseProxy (args : HttpProxyArgs) (shutdown : Nat) :
    Except Halt HttpReverseProxy :=
  match newHttpReverseProxy args shutdown with
  | .error e => .error e
  | .ok proxy =>
      let addPaths : Eff HttpReverseProxy Unit := forEach args.paths fun path => do
        HttpReverseProxy.addPrefix path.pattern path.balanceMode path.hosts path.static
        -- written even when `AddPrefix` returned because the pattern was there
        modify fun proxy =>
          { proxy with
            balancerType := proxy.balancerType.insert path.pattern path.balanceMode }
      match EStateM.run addPaths proxy with
      | .ok _ proxy => .ok proxy
      | .error e _ => .error e

end Proxy
end VermouthGateway
