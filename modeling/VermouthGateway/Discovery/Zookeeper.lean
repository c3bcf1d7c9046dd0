import VermouthGateway.Go.Map
import VermouthGateway.Utils.Net

/-!
# Service discovery

A `ZookeeperDiscovery` runs one goroutine that watches the list of services,
`watchServices`, and for each service it finds one that watches its nodes,
`watchNode`.  Both send events on an unbuffered channel: a send is one step
with the receiver.

`Shutdown` maps a service to the context its watcher looks at; a context is a
number, and `cancelled` holds those that were cancelled.  `watchServices`
cancels, the watcher deletes the entry when it notices.

A read of the list that fails is tried again and changes nothing.  A panic of
either goroutine ends the process.
-/

namespace VermouthGateway
namespace Discovery

/-- `Event.Opt`. -/
inductive Opt
  | removeService
  | addService
  | removeHost
  | addHost
  | removeHosts
deriving DecidableEq

structure Event where
  opt : Opt
  serviceName : String
  host : String := ""
  children : List String := []
deriving DecidableEq

/-- The event is about a service, not about its hosts. -/
def Event.isLifecycle (e : Event) : Bool :=
  e.opt = .addService || e.opt = .removeService

/-- What is read of the record of a node. -/
structure ZookeeperServiceInfo where
  address : String
  port : Int

/-- `fmt.Sprintf("%s:%d", address, port)`. -/
def hostPort (address : String) (port : Int) : String := address ++ ":" ++ toString port

/-- The `ADD_HOST` events of one node; a node without a readable record has the
zero value. -/
def nodeEvents (lookupHost : String → Option (List String)) (service : String)
    (info : ZookeeperServiceInfo) : List Event :=
  if Utils.validIPAddress info.address = "IPv4" then
    [{ opt := .addHost, serviceName := service, host := hostPort info.address info.port }]
  -- logged as unsupported
  else if Utils.validIPAddress info.address = "IPv6" then []
  else
    -- a host name; when it cannot be looked up the `break` leaves the `switch`, not the loop
    match lookupHost info.address with
    | none => []
    | some addrs => addrs.map fun addr =>
        { opt := .addHost, serviceName := service, host := hostPort addr info.port }

/-- What one round of `watchNode` sends: the addresses that are there, then each
of them. -/
def roundEvents (order : RangeOrder String ZookeeperServiceInfo)
    (lookupHost : String → Option (List String)) (service : String) (nodes : List String)
    (infos : GoMap String ZookeeperServiceInfo) : List Event :=
  { opt := .removeHosts, serviceName := service
    children := (order.keys infos).map fun node =>
      hostPort (infos.get node ⟨"", 0⟩).address (infos.get node ⟨"", 0⟩).port } ::
    nodes.flatMap fun node => nodeEvents lookupHost service (infos.get node ⟨"", 0⟩)

/-- Where `watchServices` is.  `cur` is the list it has read; `todo` is what is
left of the loop it is in. -/
inductive ServicesPc
  | reading
  | dropping (cur : Finset String) (todo : List String)
  | removing (cur : Finset String) (service : String) (todo : List String)
  | adding (cur : Finset String) (todo : List String)
  | announcing (cur : Finset String) (service : String) (todo : List String)
  | starting (cur : Finset String) (service : String) (todo : List String)
  | waiting

/-- Where a `watchNode` is: about to read, in its sends, or in the `select` with
the context it found there. -/
inductive NodePc
  | reading
  | sending (events : List Event)
  | selecting (ctx : Nat)

structure WatchNode where
  service : String
  pc : NodePc

structure ZookeeperDiscovery where
  services : Finset String
  shutdown : GoMap String Nat
  cancelled : Finset Nat
  watchServices : ServicesPc
  /-- The goroutines of `watchNode` that have not returned. -/
  watchNodes : GoMap Nat WatchNode
  /-- The next context or goroutine. -/
  next : Nat
  /-- The events that were sent, newest first. -/
  sent : List Event
  panicked : Bool

/-- `NewZookeeperDiscovery` with `watchServices` about to run. -/
def newZookeeperDiscovery : ZookeeperDiscovery where
  services := ∅
  shutdown := ∅
  cancelled := ∅
  watchServices := .reading
  watchNodes := ∅
  next := 0
  sent := []
  panicked := false

inductive WatchEvent
  | listed (cur : Finset String) (todo : List String)
  | kept (service : String)
  | cancelled (service : String)
  | cancelledNil (service : String)
  | removed (service : String)
  | dropped (todo : List String)
  | skipped (service : String)
  | created (service : String)
  | announced (service : String)
  | started (service : String)
  | added
  | notified
  | nodeRead (goroutine : Nat)
  | nodeSent (goroutine : Nat) (event : Event)
  | nodeSelects (goroutine : Nat)
  | nodeSelectsNil (goroutine : Nat)
  | nodeNotified (goroutine : Nat)
  | nodeClosed (goroutine : Nat)

/-- The event a step sends. -/
def WatchEvent.sends : WatchEvent → Option Event
  | .removed service => some { opt := .removeService, serviceName := service }
  | .announced service => some { opt := .addService, serviceName := service }
  | .nodeSent _ event => some event
  | _ => none

namespace ZookeeperDiscovery

/-- A `watchNode` goes on. -/
def setNode (zk : ZookeeperDiscovery) (goroutine : Nat) (node : WatchNode) (pc : NodePc) :
    ZookeeperDiscovery :=
  { zk with watchNodes := zk.watchNodes.insert goroutine { node with pc := pc } }

end ZookeeperDiscovery

/-- The statements of `watchServices` and of the running `watchNode`s, one at a
time.  A range over a map is a list of its keys in some order. -/
inductive WatchStep : ZookeeperDiscovery → WatchEvent → ZookeeperDiscovery → Prop
  -- `todo` is `range zk.Services`; the list that was read replaces it at the end only
  | listed {zk : ZookeeperDiscovery} {cur : Finset String} {todo : List String}
      (hpc : zk.watchServices = .reading) (hnodup : todo.Nodup)
      (hrange : ∀ service, service ∈ todo ↔ service ∈ zk.services) :
      WatchStep zk (.listed cur todo) { zk with watchServices := .dropping cur todo }
  | kept {zk : ZookeeperDiscovery} {cur : Finset String} {service : String} {todo : List String}
      (hpc : zk.watchServices = .dropping cur (service :: todo)) (hcur : service ∈ cur) :
      WatchStep zk (.kept service) { zk with watchServices := .dropping cur todo }
  -- `cancel` is called; the entry stays until the watcher deletes it
  | cancelled {zk : ZookeeperDiscovery} {cur : Finset String} {service : String}
      {todo : List String} {ctx : Nat}
      (hpc : zk.watchServices = .dropping cur (service :: todo)) (hcur : service ∉ cur)
      (hentry : zk.shutdown.lookup service = some ctx) :
      WatchStep zk (.cancelled service)
        { zk with
          cancelled := insert ctx zk.cancelled
          watchServices := .removing cur service todo }
  -- the zero value of a missing entry has a nil `cancel`
  | cancelledNil {zk : ZookeeperDiscovery} {cur : Finset String} {service : String}
      {todo : List String}
      (hpc : zk.watchServices = .dropping cur (service :: todo)) (hcur : service ∉ cur)
      (hentry : zk.shutdown.lookup service = none) :
      WatchStep zk (.cancelledNil service) { zk with panicked := true }
  | removed {zk : ZookeeperDiscovery} {cur : Finset String} {service : String}
      {todo : List String} (hpc : zk.watchServices = .removing cur service todo) :
      WatchStep zk (.removed service)
        { zk with
          watchServices := .dropping cur todo
          sent := { opt := .removeService, serviceName := service } :: zk.sent }
  | dropped {zk : ZookeeperDiscovery} {cur : Finset String} {todo : List String}
      (hpc : zk.watchServices = .dropping cur []) (hnodup : todo.Nodup)
      (hrange : ∀ service, service ∈ todo ↔ service ∈ cur) :
      WatchStep zk (.dropped todo) { zk with watchServices := .adding cur todo }
  -- any entry counts as a watcher, also that of one which is cancelled
  | skipped {zk : ZookeeperDiscovery} {cur : Finset String} {service : String}
      {todo : List String} (hpc : zk.watchServices = .adding cur (service :: todo))
      (hentry : service ∈ zk.shutdown) :
      WatchStep zk (.skipped service) { zk with watchServices := .adding cur todo }
  -- a new context in `Shutdown`, then the send, then the goroutine
  | created {zk : ZookeeperDiscovery} {cur : Finset String} {service : String}
      {todo : List String} (hpc : zk.watchServices = .adding cur (service :: todo))
      (hentry : service ∉ zk.shutdown) :
      WatchStep zk (.created service)
        { zk with
          shutdown := zk.shutdown.insert service zk.next
          next := zk.next + 1
          watchServices := .announcing cur service todo }
  | announced {zk : ZookeeperDiscovery} {cur : Finset String} {service : String}
      {todo : List String} (hpc : zk.watchServices = .announcing cur service todo) :
      WatchStep zk (.announced service)
        { zk with
          watchServices := .starting cur service todo
          sent := { opt := .addService, serviceName := service } :: zk.sent }
  | started {zk : ZookeeperDiscovery} {cur : Finset String} {service : String}
      {todo : List String} (hpc : zk.watchServices = .starting cur service todo) :
      WatchStep zk (.started service)
        { zk with
          watchServices := .adding cur todo
          watchNodes := zk.watchNodes.insert zk.next ⟨service, .reading⟩
          next := zk.next + 1 }
  | added {zk : ZookeeperDiscovery} {cur : Finset String}
      (hpc : zk.watchServices = .adding cur []) :
      WatchStep zk .added { zk with services := cur, watchServices := .waiting }
  | notified {zk : ZookeeperDiscovery} (hpc : zk.watchServices = .waiting) :
      WatchStep zk .notified { zk with watchServices := .reading }
  -- the nodes and their records are whatever is read in this round
  | nodeRead {zk : ZookeeperDiscovery} {goroutine : Nat} {node : WatchNode}
      (order : RangeOrder String ZookeeperServiceInfo)
      (lookupHost : String → Option (List String)) (nodes : List String)
      (infos : GoMap String ZookeeperServiceInfo)
      (hnode : zk.watchNodes.lookup goroutine = some node) (hpc : node.pc = .reading) :
      WatchStep zk (.nodeRead goroutine) (zk.setNode goroutine node
        (.sending (roundEvents order lookupHost node.service nodes infos)))
  | nodeSent {zk : ZookeeperDiscovery} {goroutine : Nat} {node : WatchNode} {event : Event}
      {events : List Event} (hnode : zk.watchNodes.lookup goroutine = some node)
      (hpc : node.pc = .sending (event :: events)) :
      WatchStep zk (.nodeSent goroutine event)
        { zk.setNode goroutine node (.sending events) with sent := event :: zk.sent }
  -- the `select` looks the context up once, before it waits
  | nodeSelects {zk : ZookeeperDiscovery} {goroutine : Nat} {node : WatchNode} {ctx : Nat}
      (hnode : zk.watchNodes.lookup goroutine = some node) (hpc : node.pc = .sending [])
      (hentry : zk.shutdown.lookup node.service = some ctx) :
      WatchStep zk (.nodeSelects goroutine) (zk.setNode goroutine node (.selecting ctx))
  -- the zero value of a missing entry has a nil `ctx`
  | nodeSelectsNil {zk : ZookeeperDiscovery} {goroutine : Nat} {node : WatchNode}
      (hnode : zk.watchNodes.lookup goroutine = some node) (hpc : node.pc = .sending [])
      (hentry : zk.shutdown.lookup node.service = none) :
      WatchStep zk (.nodeSelectsNil goroutine) { zk with panicked := true }
  | nodeNotified {zk : ZookeeperDiscovery} {goroutine : Nat} {node : WatchNode} {ctx : Nat}
      (hnode : zk.watchNodes.lookup goroutine = some node) (hpc : node.pc = .selecting ctx) :
      WatchStep zk (.nodeNotified goroutine) (zk.setNode goroutine node .reading)
  -- the entry is deleted by the name of the service, whatever it is by now
  | nodeClosed {zk : ZookeeperDiscovery} {goroutine : Nat} {node : WatchNode} {ctx : Nat}
      (hnode : zk.watchNodes.lookup goroutine = some node) (hpc : node.pc = .selecting ctx)
      (hdone : ctx ∈ zk.cancelled) :
      WatchStep zk (.nodeClosed goroutine)
        { zk with
          shutdown := zk.shutdown.erase node.service
          watchNodes := zk.watchNodes.erase goroutine }

/-! ## What the events are about -/

/-- A round sends events about the hosts of its service only. -/
theorem roundEvents_spec {order : RangeOrder String ZookeeperServiceInfo}
    {lookupHost : String → Option (List String)} {service : String} {nodes : List String}
    {infos : GoMap String ZookeeperServiceInfo} {event : Event}
    (hevent : event ∈ roundEvents order lookupHost service nodes infos) :
    event.serviceName = service ∧ (event.opt = .removeHosts ∨ event.opt = .addHost) := by
  rcases List.mem_cons.mp hevent with rfl | hevent
  · exact ⟨rfl, Or.inl rfl⟩
  · obtain ⟨node, -, hevent⟩ := List.mem_flatMap.mp hevent
    rw [nodeEvents] at hevent
    split at hevent
    · obtain rfl := List.mem_singleton.mp hevent
      exact ⟨rfl, Or.inr rfl⟩
    · split at hevent
      · cases hevent
      · split at hevent
        · cases hevent
        · obtain ⟨addr, -, rfl⟩ := List.mem_map.mp hevent
          exact ⟨rfl, Or.inr rfl⟩

end Discovery
end VermouthGateway
