import VermouthGateway.Foundation.Runs
import VermouthGateway.Go.Effect
import VermouthGateway.Go.Map

/-!
# Leadership

A node in cluster mode listens to the notifications of raft.  When it becomes
the leader it starts its discoveries and opens the write interface; when it
becomes a follower it closes the interface.  Neither of the loops it has started,
`watchServices` for a discovery and `HandleNamespaceEvent` for its channel, has a
way out, and nothing stops them.

Both maps are keyed by the port, and a discovery of an unknown class is left out
of them, so they need not have every discovery of the configuration.

* `startDiscovery_spec`: a start adds one loop of each kind for every port of the
  maps.
* `ready_iff`: the maps have all discoveries exactly when the configuration is
  `Ready`.
* `discovery_follows_leader`: so the loops follow the leadership as long as the
  first notification of a promotion is the last one there is.

The node has an http server and no rpc server.
-/

namespace VermouthGateway
namespace Cluster

open Go Runs

/-- The goroutines a discovery leaves running.  Every discovery has its own
`EventChan`, which tells the loops of two discoveries apart. -/
inductive DiscoveryLoop
  | watchServices (eventChan : Nat)
  | handleNamespaceEvent (notify : Nat) (port : Int)
deriving DecidableEq

namespace DiscoveryLoop

def watches (eventChan : Nat) : DiscoveryLoop → Bool
  | .watchServices c => c = eventChan
  | .handleNamespaceEvent _ _ => false

def handles (port : Int) : DiscoveryLoop → Bool
  | .watchServices _ => false
  | .handleNamespaceEvent _ q => q = port

end DiscoveryLoop

/-- What is in `discoveryMap`: the interface is nil when there was no client. -/
inductive Discoverer
  | nil
  | zookeeper (eventChan : Nat)
deriving DecidableEq

/-- One discovery of the configuration. -/
structure DiscoveryArgs where
  port : Int
  nameSpace : String
  address : List String
  connectTimeout : Int

structure LeaderNode where
  leader : Bool
  enableWrite : Int
  discoveryMap : GoMap Int Discoverer
  discoverNotify : GoMap Int Nat
  /-- The next channel `make` returns. -/
  nextChan : Nat
  /-- The loops that were started. -/
  loops : List DiscoveryLoop

namespace LeaderNode

/-- `checkWritePermission`. -/
def checkWritePermission (node : LeaderNode) : Bool := node.enableWrite = 1

end LeaderNode

/-- `discovery.Build`; `none` is its error.  `connects` says for which arguments
`zk.Connect` makes a client. -/
def buildDiscoverer (connects : List String → Int → Bool) (notify : Nat)
    (args : DiscoveryArgs) : Option Discoverer :=
  if args.nameSpace = "zookeeper" then
    if connects args.address args.connectTimeout then some (.zookeeper notify) else some .nil
  else none

namespace LeaderNode

/-- One round of `buildDiscovery`: the channel is made before the class is
looked up. -/
def addDiscovery (connects : List String → Int → Bool) (node : LeaderNode)
    (args : DiscoveryArgs) : LeaderNode :=
  match buildDiscoverer connects node.nextChan args with
  | none => { node with nextChan := node.nextChan + 1 }
  | some dis =>
      { node with
        discoverNotify := node.discoverNotify.insert args.port node.nextChan
        discoveryMap := node.discoveryMap.insert args.port dis
        nextChan := node.nextChan + 1 }

/-- A node before its first notification, with `buildDiscovery` done: the `i`-th
discovery of the configuration was given the channel `i`. -/
def start (connects : List String → Int → Bool) (args : List DiscoveryArgs) : LeaderNode :=
  args.foldl (addDiscovery connects) ⟨false, 0, ∅, ∅, 0, []⟩

/-- The node with more loops. -/
def withLoops (node : LeaderNode) (loops : List DiscoveryLoop) : LeaderNode :=
  { node with loops := node.loops ++ loops }

/-- A `go` statement. -/
def spawn (loop : DiscoveryLoop) : Eff LeaderNode Unit :=
  modify fun node => node.withLoops [loop]

/-- `go dis.Run()`, and `Run` starts `watchServices`; a nil `dis` is
dereferenced by the `go` statement. -/
def goRun (port : Int) : Eff LeaderNode Unit := do
  let node ← get
  match node.discoveryMap.lookup port with
  | some (.zookeeper eventChan) => spawn (.watchServices eventChan)
  | _ => panic .nilDereference

/-- `go vermouth.HandleNamespaceEvent(notify, port)`. -/
def goHandle (port : Int) : Eff LeaderNode Unit := do
  let node ← get
  spawn (.handleNamespaceEvent (node.discoverNotify.get port 0) port)

end LeaderNode

/-- The orders in which `startDiscovery` ranges over its maps. -/
structure DiscoveryOrder where
  discoveries : RangeOrder Int Discoverer
  notifies : RangeOrder Int Nat

namespace LeaderNode

/-- Both maps in increasing key order. -/
def inKeyOrder : DiscoveryOrder := ⟨.sorted _ _, .sorted _ _⟩

/-- `startDiscovery`. -/
def startDiscovery (order : DiscoveryOrder) : Eff LeaderNode Unit := do
  let node ← get
  forEach (order.discoveries.keys node.discoveryMap) goRun
  forEach (order.notifies.keys node.discoverNotify) goHandle

/-- `SetWriteFlag`. -/
def setWriteFlag (flag : Bool) : Eff LeaderNode Unit :=
  modify fun node => { node with enableWrite := if flag then 1 else 0 }

/-- One round of the loop over `leaderNotify`. -/
def handleNotification (order : DiscoveryOrder) (leader : Bool) : Eff LeaderNode Unit :=
  if leader then do
    modify fun node => { node with leader := true }
    startDiscovery order
    setWriteFlag true
  else do
    modify fun node => { node with leader := false }
    -- the write flag only: the loops of `startDiscovery` are not stopped
    setWriteFlag false

/-! ## What a start adds -/

/-- No discovery of the map is nil. -/
def Connected (node : LeaderNode) : Prop :=
  ∀ port ∈ node.discoveryMap, ∃ eventChan,
    node.discoveryMap.lookup port = some (.zookeeper eventChan)

/-- What `Run` of the discovery on a port starts. -/
def watchLoop (node : LeaderNode) (port : Int) : List DiscoveryLoop :=
  match node.discoveryMap.lookup port with
  | some (.zookeeper eventChan) => [.watchServices eventChan]
  | _ => []

/-- The loops of one start. -/
def started (order : DiscoveryOrder) (node : LeaderNode) : List DiscoveryLoop :=
  (order.discoveries.keys node.discoveryMap).flatMap node.watchLoop ++
    (order.notifies.keys node.discoverNotify).map fun port =>
      .handleNamespaceEvent (node.discoverNotify.get port 0) port

theorem withLoops_nil (node : LeaderNode) : node.withLoops [] = node := by
  rw [withLoops, List.append_nil]

theorem withLoops_withLoops (node : LeaderNode) (loops loops' : List DiscoveryLoop) :
    (node.withLoops loops).withLoops loops' = node.withLoops (loops ++ loops') := by
  rw [withLoops, withLoops, withLoops, List.append_assoc]

theorem run_goRun {port : Int} {node : LeaderNode} {eventChan : Nat}
    (hclient : node.discoveryMap.lookup port = some (.zookeeper eventChan)) :
    EStateM.run (goRun port) node = .ok () (node.withLoops (node.watchLoop port)) := by
  rw [goRun, EStateM.run_bind, EStateM.run_get, watchLoop]
  dsimp only
  rw [hclient]
  rfl

theorem client_of_run_goRun {port : Int} {node node' : LeaderNode}
    (hrun : EStateM.run (goRun port) node = .ok () node') :
    ∃ eventChan, node.discoveryMap.lookup port = some (.zookeeper eventChan) := by
  rw [goRun, EStateM.run_bind, EStateM.run_get] at hrun
  dsimp only at hrun
  split at hrun
  next eventChan hclient => exact ⟨eventChan, hclient⟩
  · cases hrun

theorem run_goHandle (port : Int) (node : LeaderNode) :
    EStateM.run (goHandle port) node =
      .ok () (node.withLoops
        [.handleNamespaceEvent (node.discoverNotify.get port 0) port]) := rfl

theorem run_goRuns {ports : List Int} {node : LeaderNode}
    (hclients : ∀ port ∈ ports, ∃ eventChan,
      node.discoveryMap.lookup port = some (.zookeeper eventChan)) :
    EStateM.run (forEach ports goRun) node =
      .ok () (node.withLoops (ports.flatMap node.watchLoop)) := by
  suffices h : ∀ loops, EStateM.run (forEach ports goRun) (node.withLoops loops) =
      .ok () (node.withLoops (loops ++ ports.flatMap node.watchLoop)) by
    have hall := h []
    rwa [withLoops_nil, List.nil_append] at hall
  induction ports with
  | nil =>
      intro loops
      rw [List.flatMap_nil, List.append_nil, run_forEach_nil]
  | cons port ports ih =>
      intro loops
      obtain ⟨eventChan, hclient⟩ := hclients port List.mem_cons_self
      have hclient' : (node.withLoops loops).discoveryMap.lookup port =
          some (.zookeeper eventChan) := hclient
      rw [run_forEach_cons, run_goRun hclient']
      dsimp only
      rw [withLoops_withLoops, ih fun q hq => hclients q (List.mem_cons_of_mem port hq),
        List.append_assoc, List.flatMap_cons]
      rfl

theorem clients_of_run_goRuns {ports : List Int} {node node' : LeaderNode}
    (hrun : EStateM.run (forEach ports goRun) node = .ok () node') :
    ∀ port ∈ ports, ∃ eventChan,
      node.discoveryMap.lookup port = some (.zookeeper eventChan) := by
  induction ports generalizing node with
  | nil => exact fun port hport => absurd hport List.not_mem_nil
  | cons port ports ih =>
      obtain ⟨⟨⟩, node₁, hfirst, hrest⟩ := run_forEach_cons_ok hrun
      obtain ⟨eventChan, hclient⟩ := client_of_run_goRun hfirst
      rw [run_goRun hclient] at hfirst
      cases hfirst
      exact List.forall_mem_cons.mpr
        ⟨⟨eventChan, hclient⟩, @ih (node.withLoops (node.watchLoop port)) hrest⟩

theorem run_goHandles (ports : List Int) (node : LeaderNode) :
    EStateM.run (forEach ports goHandle) node =
      .ok () (node.withLoops (ports.map fun port =>
        .handleNamespaceEvent (node.discoverNotify.get port 0) port)) := by
  induction ports generalizing node with
  | nil => rw [List.map_nil, withLoops_nil, run_forEach_nil]
  | cons port ports ih =>
      rw [run_forEach_cons, run_goHandle]
      dsimp only
      have hrest := ih (node.withLoops
        [.handleNamespaceEvent (node.discoverNotify.get port 0) port])
      rw [hrest, withLoops_withLoops, List.singleton_append, List.map_cons]
      rfl

/-- A start adds one loop of each kind for every port of the maps, and it returns
exactly when no discovery of them is nil. -/
theorem startDiscovery_spec (order : DiscoveryOrder) (node node' : LeaderNode) :
    EStateM.run (startDiscovery order) node = .ok () node' ↔
      node.Connected ∧ node' = node.withLoops (started order node) := by
  have hkeys : node.Connected ↔ ∀ port ∈ order.discoveries.keys node.discoveryMap,
      ∃ eventChan, node.discoveryMap.lookup port = some (.zookeeper eventChan) :=
    ⟨fun h port hport => h port ((order.discoveries.mem_keys _ _).mp hport),
      fun h port hport => h port ((order.discoveries.mem_keys _ _).mpr hport)⟩
  have hreturns : node.Connected → EStateM.run (startDiscovery order) node =
      .ok () (node.withLoops (started order node)) := by
    intro hclients
    rw [startDiscovery, EStateM.run_bind, EStateM.run_get]
    dsimp only
    rw [EStateM.run_bind, run_goRuns (hkeys.mp hclients)]
    dsimp only
    rw [run_goHandles, withLoops_withLoops]
    rfl
  constructor
  · intro hrun
    have hclients : node.Connected := by
      rw [startDiscovery, EStateM.run_bind, EStateM.run_get] at hrun
      obtain ⟨_, node₁, hloops, -⟩ := run_bind_ok hrun
      exact hkeys.mpr (clients_of_run_goRuns hloops)
    rw [hreturns hclients] at hrun
    cases hrun
    exact ⟨hclients, rfl⟩
  · rintro ⟨hclients, rfl⟩
    exact hreturns hclients

/-- The node after a notification, when the start, if any, has returned. -/
def notified (order : DiscoveryOrder) (node : LeaderNode) (leader : Bool) : LeaderNode :=
  { node with
    leader := leader
    enableWrite := if leader then 1 else 0
    loops := node.loops ++ if leader then started order node else [] }

/-- A notification is handled exactly when the start it asks for returns. -/
theorem handleNotification_spec (order : DiscoveryOrder) (leader : Bool)
    (node node' : LeaderNode) :
    EStateM.run (handleNotification order leader) node = .ok () node' ↔
      (leader = true → node.Connected) ∧ node' = notified order node leader := by
  cases leader with
  | false =>
      have hrun : EStateM.run (handleNotification order false) node =
          .ok () { node with leader := false, enableWrite := 0 } := rfl
      have hsame : notified order node false =
          { node with leader := false, enableWrite := 0 } := by
        rw [notified, if_neg Bool.false_ne_true, if_neg Bool.false_ne_true, List.append_nil]
      rw [hrun, hsame]
      constructor
      · intro heq
        cases heq
        exact ⟨fun hleader => absurd hleader Bool.false_ne_true, rfl⟩
      · rintro ⟨-, rfl⟩
        rfl
  | true =>
      rw [handleNotification, if_pos rfl, EStateM.run_bind, run_modify]
      dsimp only
      constructor
      · intro hrun
        obtain ⟨_, node₁, hstart, hflag⟩ := run_bind_ok hrun
        obtain ⟨hclients, rfl⟩ := (startDiscovery_spec order _ _).mp hstart
        cases hflag
        exact ⟨fun _ => hclients, rfl⟩
      · rintro ⟨hclients, rfl⟩
        have hstart := (startDiscovery_spec order { node with leader := true } _).mpr
          ⟨hclients rfl, rfl⟩
        rw [EStateM.run_bind, hstart]
        rfl

/-! ## What is in the maps -/

/-- Every discovery of the configuration has a known class and a client, and no two
of them have one port. -/
structure Ready (connects : List String → Int → Bool) (args : List DiscoveryArgs) : Prop where
  known : ∀ dis ∈ args, dis.nameSpace = "zookeeper"
  connected : ∀ dis ∈ args, connects dis.address dis.connectTimeout = true
  nodup : (args.map DiscoveryArgs.port).Nodup

section Maps

variable {connects : List String → Int → Bool} {args : List DiscoveryArgs}

theorem start_append (connects : List String → Int → Bool) (args : List DiscoveryArgs)
    (last : DiscoveryArgs) : start connects (args ++ [last]) =
      addDiscovery connects (start connects args) last := by
  rw [start, List.foldl_append, List.foldl_cons, List.foldl_nil]
  rfl

theorem nextChan_start (connects : List String → Int → Bool) (args : List DiscoveryArgs) :
    (start connects args).nextChan = args.length := by
  induction args using List.reverseRecOn with
  | nil => rfl
  | append_singleton args last ih =>
      rw [start_append, addDiscovery, List.length_append, List.length_singleton, ← ih]
      split <;> rfl

/-- Nothing is started before the first notification. -/
theorem start_frame (connects : List String → Int → Bool) (args : List DiscoveryArgs) :
    (start connects args).leader = false ∧ (start connects args).enableWrite = 0 ∧
      (start connects args).loops = [] := by
  induction args using List.reverseRecOn with
  | nil => exact ⟨rfl, rfl, rfl⟩
  | append_singleton args last ih =>
      rw [start_append, addDiscovery]
      split <;> exact ih

theorem mem_discoverNotify_start (port : Int) :
    port ∈ (start connects args).discoverNotify ↔ port ∈ (start connects args).discoveryMap := by
  induction args using List.reverseRecOn with
  | nil => exact iff_of_false Finmap.notMem_empty Finmap.notMem_empty
  | append_singleton args last ih =>
      rw [start_append, addDiscovery]
      split
      · exact ih
      · rw [Finmap.mem_insert, Finmap.mem_insert, ih]

/-- What is in the map was configured for its port. -/
theorem mem_discoveryMap_start {port : Int} (hport : port ∈ (start connects args).discoveryMap) :
    ∃ dis ∈ args, dis.port = port := by
  induction args using List.reverseRecOn with
  | nil => exact absurd hport Finmap.notMem_empty
  | append_singleton args last ih =>
      rw [start_append, addDiscovery] at hport
      split at hport
      · obtain ⟨dis, hdis, heq⟩ := ih hport
        exact ⟨dis, List.mem_append_left _ hdis, heq⟩
      · rcases Finmap.mem_insert.mp hport with rfl | hport
        · exact ⟨last, List.mem_append_right _ List.mem_cons_self, rfl⟩
        · obtain ⟨dis, hdis, heq⟩ := ih hport
          exact ⟨dis, List.mem_append_left _ hdis, heq⟩

/-- A discovery of the map has the channel of its place in the configuration. -/
theorem lookup_discoveryMap_start {port : Int} {i : Nat}
    (hlookup : (start connects args).discoveryMap.lookup port = some (.zookeeper i)) :
    ∃ dis, args[i]? = some dis ∧ dis.port = port ∧ dis.nameSpace = "zookeeper" ∧
      connects dis.address dis.connectTimeout = true := by
  induction args using List.reverseRecOn with
  | nil => cases hlookup
  | append_singleton args last ih =>
      -- an earlier discovery keeps its place
      have hearlier : (start connects args).discoveryMap.lookup port = some (.zookeeper i) →
          ∃ dis, (args ++ [last])[i]? = some dis ∧ dis.port = port ∧
            dis.nameSpace = "zookeeper" ∧ connects dis.address dis.connectTimeout = true := by
        intro hold
        obtain ⟨dis, hdis, hrest⟩ := ih hold
        obtain ⟨hlt, -⟩ := List.getElem?_eq_some_iff.mp hdis
        exact ⟨dis, by rw [List.getElem?_append_left hlt, hdis], hrest⟩
      rw [start_append, addDiscovery, nextChan_start, buildDiscoverer] at hlookup
      by_cases hknown : last.nameSpace = "zookeeper"
      · rw [if_pos hknown] at hlookup
        by_cases hconnects : connects last.address last.connectTimeout = true
        · rw [if_pos hconnects] at hlookup
          dsimp only at hlookup
          rw [GoMap.lookup_insert_eq] at hlookup
          split at hlookup
          next hport =>
            cases hlookup
            exact ⟨last, List.getElem?_concat_length, hport.symm, hknown, hconnects⟩
          · exact hearlier hlookup
        · rw [if_neg hconnects] at hlookup
          dsimp only at hlookup
          rw [GoMap.lookup_insert_eq] at hlookup
          split at hlookup
          · cases hlookup
          · exact hearlier hlookup
      · rw [if_neg hknown] at hlookup
        exact hearlier hlookup

theorem Ready.of_append {last : DiscoveryArgs} (h : Ready connects (args ++ [last])) :
    Ready connects args where
  known dis hdis := h.known dis (List.mem_append_left _ hdis)
  connected dis hdis := h.connected dis (List.mem_append_left _ hdis)
  nodup := by
    have hnodup := h.nodup
    rw [List.map_append] at hnodup
    exact hnodup.of_append_left

/-- A configuration that is ready has all its discoveries in the map. -/
theorem Ready.lookup (h : Ready connects args) {i : Nat} {dis : DiscoveryArgs}
    (hdis : args[i]? = some dis) :
    (start connects args).discoveryMap.lookup dis.port = some (.zookeeper i) := by
  induction args using List.reverseRecOn with
  | nil => cases hdis
  | append_singleton args last ih =>
      have hmem : last ∈ args ++ [last] := List.mem_append_right _ List.mem_cons_self
      rw [start_append, addDiscovery, buildDiscoverer, if_pos (h.known last hmem),
        if_pos (h.connected last hmem), nextChan_start]
      dsimp only
      rw [GoMap.lookup_insert_eq]
      rcases Nat.lt_or_ge i args.length with hlt | hge
      · rw [List.getElem?_append_left hlt] at hdis
        have hne : dis.port ≠ last.port := by
          have hnodup := h.nodup
          rw [List.map_append, List.nodup_append] at hnodup
          exact hnodup.2.2 _ (List.mem_map_of_mem (List.mem_of_getElem? hdis)) _
            List.mem_cons_self
        rw [if_neg hne]
        exact ih h.of_append hdis
      · obtain ⟨hlt, hlast⟩ := List.getElem?_eq_some_iff.mp hdis
        rw [List.length_append, List.length_singleton] at hlt
        obtain rfl : i = args.length := by omega
        obtain rfl : last = dis := by
          rw [List.getElem?_concat_length] at hdis
          exact Option.some.inj hdis
        rw [if_pos rfl]

/-- The map has every discovery of the configuration exactly when it is ready. -/
theorem ready_iff : Ready connects args ↔ ∀ i < args.length, ∃ port,
    (start connects args).discoveryMap.lookup port = some (.zookeeper i) := by
  constructor
  · intro h i hi
    exact ⟨_, h.lookup (List.getElem?_eq_getElem hi)⟩
  · intro hall
    have hat : ∀ i dis, args[i]? = some dis →
        (start connects args).discoveryMap.lookup dis.port = some (.zookeeper i) ∧
        dis.nameSpace = "zookeeper" ∧ connects dis.address dis.connectTimeout = true := by
      intro i dis hdis
      obtain ⟨hlt, -⟩ := List.getElem?_eq_some_iff.mp hdis
      obtain ⟨port, hlookup⟩ := hall i hlt
      obtain ⟨dis', hdis', rfl, hrest⟩ := lookup_discoveryMap_start hlookup
      cases hdis.symm.trans hdis'
      exact ⟨hlookup, hrest⟩
    refine ⟨fun dis hmem => ?_, fun dis hmem => ?_, ?_⟩
    · obtain ⟨i, hdis⟩ := List.getElem?_of_mem hmem
      exact (hat i dis hdis).2.1
    · obtain ⟨i, hdis⟩ := List.getElem?_of_mem hmem
      exact (hat i dis hdis).2.2
    · -- two discoveries of one port would have one channel
      refine List.nodup_iff_injective_get.mpr fun i j heq => Fin.ext ?_
      have hi : i.val < args.length := by simpa using i.isLt
      have hj : j.val < args.length := by simpa using j.isLt
      have hport : args[i.val].port = args[j.val].port := by simpa using heq
      have hleft := (hat i.val _ (List.getElem?_eq_getElem hi)).1
      have hright := (hat j.val _ (List.getElem?_eq_getElem hj)).1
      rw [hport, hright] at hleft
      injection hleft with hleft
      injection hleft with hleft
      exact hleft.symm

theorem Ready.connected_start (h : Ready connects args) : (start connects args).Connected := by
  intro port hport
  obtain ⟨dis, hdis, rfl⟩ := mem_discoveryMap_start hport
  obtain ⟨i, hi⟩ := List.getElem?_of_mem hdis
  exact ⟨i, h.lookup hi⟩

end Maps

/-! ## Counting the loops -/

section Counting

variable {connects : List String → Int → Bool} {args : List DiscoveryArgs}
  {order : DiscoveryOrder} {node : LeaderNode}

/-- The loops of the discovery `i` that a start adds. -/
theorem countP_watches_started (i : Nat) :
    (started order node).countP (DiscoveryLoop.watches i) =
      (order.discoveries.keys node.discoveryMap).countP
        fun port => node.discoveryMap.lookup port = some (.zookeeper i) := by
  have hhandle : (order.notifies.keys node.discoverNotify).countP
      (DiscoveryLoop.watches i ∘ fun port =>
        .handleNamespaceEvent (node.discoverNotify.get port 0) port) = 0 :=
    List.countP_eq_zero.mpr fun q _ => by simp [DiscoveryLoop.watches]
  rw [started, List.countP_append, List.countP_map, hhandle, Nat.add_zero]
  generalize order.discoveries.keys node.discoveryMap = ports
  induction ports with
  | nil => rfl
  | cons port ports ih =>
      rw [List.flatMap_cons, List.countP_append, ih, List.countP_cons, Nat.add_comm]
      congr 1
      rw [watchLoop]
      split
      next eventChan hlookup => simp [hlookup, DiscoveryLoop.watches]
      next hnone =>
        rw [List.countP_nil, if_neg]
        rw [decide_eq_true_eq]
        exact fun hlookup => hnone i hlookup

theorem countP_handles_started {port : Int} (hport : port ∈ node.discoverNotify) :
    (started order node).countP (DiscoveryLoop.handles port) = 1 := by
  have hwatch : ((order.discoveries.keys node.discoveryMap).flatMap node.watchLoop).countP
      (DiscoveryLoop.handles port) = 0 := by
    refine List.countP_eq_zero.mpr fun loop hloop => ?_
    obtain ⟨q, -, hq⟩ := List.mem_flatMap.mp hloop
    rw [watchLoop] at hq
    split at hq
    · rw [List.mem_singleton.mp hq]
      exact Bool.false_ne_true
    · cases hq
  have hhandle : (order.notifies.keys node.discoverNotify).countP
      (DiscoveryLoop.handles port ∘ fun port =>
        .handleNamespaceEvent (node.discoverNotify.get port 0) port) = 1 := by
    have honce := List.count_eq_one_of_mem (order.notifies.nodup _)
      ((order.notifies.mem_keys _ _).mpr hport)
    rw [← honce, List.count]
    exact List.countP_congr fun q _ => by simp [DiscoveryLoop.handles]
  rw [started, List.countP_append, List.countP_map, hwatch, hhandle]

/-- The maps are those of the configuration. -/
def Maps (connects : List String → Int → Bool) (args : List DiscoveryArgs) (node : LeaderNode) :
    Prop :=
  node.discoveryMap = (start connects args).discoveryMap ∧
    node.discoverNotify = (start connects args).discoverNotify

/-- A start of a configuration that is ready adds one loop of each kind for every
discovery. -/
theorem Maps.countP_started (hmaps : Maps connects args node) (h : Ready connects args) {i : Nat}
    {dis : DiscoveryArgs} (hdis : args[i]? = some dis) :
    (started order node).countP (DiscoveryLoop.watches i) = 1 ∧
      (started order node).countP (DiscoveryLoop.handles dis.port) = 1 := by
  have hlookup : node.discoveryMap.lookup dis.port = some (.zookeeper i) := by
    rw [hmaps.1, h.lookup hdis]
  have hmem : dis.port ∈ node.discoveryMap := Finmap.mem_of_lookup_eq_some hlookup
  constructor
  · have honce := List.count_eq_one_of_mem (order.discoveries.nodup _)
      ((order.discoveries.mem_keys _ _).mpr hmem)
    rw [countP_watches_started, ← honce, List.count]
    refine List.countP_congr fun q _ => ?_
    rw [decide_eq_true_eq, beq_iff_eq]
    refine ⟨fun hq => ?_, fun hq => hq ▸ hlookup⟩
    -- a channel belongs to one port
    rw [hmaps.1] at hq
    obtain ⟨dis', hdis', hport, -⟩ := lookup_discoveryMap_start hq
    cases hdis.symm.trans hdis'
    exact hport.symm
  · refine countP_handles_started ?_
    rw [hmaps.2, mem_discoverNotify_start, ← hmaps.1]
    exact hmem

end Counting

/-- The loops of every configured discovery and the write flag follow the leadership. -/
structure Follows (args : List DiscoveryArgs) (node : LeaderNode) (leader : Bool) : Prop where
  watching : ∀ i < args.length, node.loops.countP (DiscoveryLoop.watches i) = leader.toNat
  handling : ∀ dis ∈ args, node.loops.countP (DiscoveryLoop.handles dis.port) = leader.toNat
  writing : node.checkWritePermission = leader

/-- No discovery is configured, or none has been started and, when they are to be, the
configuration is ready. -/
def Timely (connects : List String → Int → Bool) (args : List DiscoveryArgs) (node : LeaderNode)
    (leader : Bool) : Prop :=
  args = [] ∨ node.loops = [] ∧ (leader = true → Ready connects args)

/-! ## Runs -/

/-- One notification, with the maps in any order. -/
def NotificationStep (node : LeaderNode) (leader : Bool) (node' : LeaderNode) : Prop :=
  ∃ order, EStateM.run (handleNotification order leader) node = .ok () node'

def TimelyStep (connects : List String → Int → Bool) (args : List DiscoveryArgs)
    (node : LeaderNode) (leader : Bool) (node' : LeaderNode) : Prop :=
  NotificationStep node leader node' ∧ node.Timely connects args leader

/-- The maps are still those of the configuration, the loops follow the last
notification, and a node with discoveries has a loop only as a leader. -/
structure Leading (connects : List String → Int → Bool) (args : List DiscoveryArgs)
    (node : LeaderNode) : Prop where
  maps : Maps connects args node
  follows : Follows args node node.leader
  idle : args = [] ∨ node.loops = [] ∨ node.leader = true ∧ Ready connects args

theorem leading_start (connects : List String → Int → Bool) (args : List DiscoveryArgs) :
    Leading connects args (start connects args) := by
  obtain ⟨hleader, hwrite, hloops⟩ := start_frame connects args
  refine ⟨⟨rfl, rfl⟩, ⟨fun i _ => ?_, fun dis _ => ?_, ?_⟩, Or.inr (Or.inl hloops)⟩
  · rw [hloops, hleader]
    rfl
  · rw [hloops, hleader]
    rfl
  · rw [checkWritePermission, hwrite, hleader]
    rfl

namespace Leading

variable {connects : List String → Int → Bool} {args : List DiscoveryArgs}
  {node node' : LeaderNode} {order : DiscoveryOrder} {leader : Bool}

theorem notified_follows (h : Leading connects args node)
    (htimely : node.Timely connects args leader) :
    Follows args (notified order node leader) leader := by
  have hwriting : (LeaderNode.notified order node leader).checkWritePermission = leader := by
    cases leader <;> rfl
  rcases htimely with rfl | ⟨hidle, hready⟩
  · refine ⟨fun i hi => absurd hi (Nat.not_lt_zero i), fun dis hdis => ?_, hwriting⟩
    cases hdis
  · have hloops : (LeaderNode.notified order node leader).loops =
        if leader then started order node else [] := by
      rw [LeaderNode.notified, hidle, List.nil_append]
    refine ⟨fun i hi => ?_, fun dis hdis => ?_, hwriting⟩
    · rw [hloops]
      cases leader with
      | false => rfl
      | true => exact (h.maps.countP_started (hready rfl) (List.getElem?_eq_getElem hi)).1
    · rw [hloops]
      obtain ⟨i, hi⟩ := List.getElem?_of_mem hdis
      cases leader with
      | false => rfl
      | true => exact (h.maps.countP_started (hready rfl) hi).2

theorem notified (h : Leading connects args node) (order : DiscoveryOrder)
    (htimely : node.Timely connects args leader) :
    Leading connects args (LeaderNode.notified order node leader) where
  maps := h.maps
  follows := h.notified_follows htimely
  idle := by
    rcases htimely with hnone | ⟨hidle, hready⟩
    · exact Or.inl hnone
    · cases leader with
      | true => exact Or.inr (Or.inr ⟨rfl, hready rfl⟩)
      | false => exact Or.inr (Or.inl ((List.append_nil _).trans hidle))

theorem step (h : Leading connects args node) (hstep : TimelyStep connects args node leader node') :
    Leading connects args node' := by
  obtain ⟨⟨order, hrun⟩, htimely⟩ := hstep
  obtain ⟨-, rfl⟩ := (handleNotification_spec order leader node node').mp hrun
  exact h.notified _ htimely

/-- Loops that were started from nothing are those of all discoveries only when the
configuration is ready. -/
theorem ready_of_follows (h : Leading connects args node) (hidle : node.loops = [])
    (hfollows : Follows args (LeaderNode.notified order node true) true) :
    Ready connects args := by
  refine ready_iff.mpr fun i hi => ?_
  have hcount := hfollows.watching i hi
  rw [LeaderNode.notified, hidle, List.nil_append] at hcount
  dsimp only at hcount
  rw [if_pos rfl, countP_watches_started] at hcount
  obtain ⟨port, -, hport⟩ := List.countP_pos_iff.mp (Nat.one_pos.trans_eq hcount.symm)
  exact ⟨port, h.maps.1 ▸ of_decide_eq_true hport⟩

/-- From a node whose loops follow the leadership, the next notification keeps
that exactly when it is timely. -/
theorem follows_iff (h : Leading connects args node) (order : DiscoveryOrder) (leader : Bool) :
    (∃ node', EStateM.run (handleNotification order leader) node = .ok () node' ∧
      Follows args node' leader) ↔ node.Timely connects args leader := by
  constructor
  · rintro ⟨node', hrun, hfollows⟩
    obtain ⟨-, rfl⟩ := (handleNotification_spec order leader node node').mp hrun
    rcases h.idle with hnone | hidle | ⟨hleader, hready⟩
    · exact Or.inl hnone
    · refine Or.inr ⟨hidle, ?_⟩
      rintro rfl
      exact h.ready_of_follows hidle hfollows
    · -- the loops of the first promotion are still there
      by_contra huntimely
      have hlength : 0 < args.length :=
        List.length_pos_iff.mpr fun hnone => huntimely (Or.inl hnone)
      have hbefore := h.follows.watching 0 hlength
      have hafter := hfollows.watching 0 hlength
      have hadded : (started order node).countP (DiscoveryLoop.watches 0) = 1 :=
        (h.maps.countP_started hready (List.getElem?_eq_getElem hlength)).1
      rw [LeaderNode.notified, List.countP_append, hbefore, hleader] at hafter
      cases leader with
      | false => cases hafter
      | true =>
          rw [if_pos rfl, hadded] at hafter
          cases hafter
  · intro htimely
    refine ⟨_, (handleNotification_spec order leader node _).mpr ⟨?_, rfl⟩,
      h.notified_follows htimely⟩
    rintro rfl port hport
    rcases htimely with rfl | ⟨-, hready⟩
    · rw [h.maps.1] at hport
      exact absurd hport Finmap.notMem_empty
    · rw [h.maps.1] at hport ⊢
      exact (hready rfl).connected_start port hport

end Leading

/-- The flag of a node is the last notification it has seen. -/
theorem leader_of_run {connects : List String → Int → Bool} {args : List DiscoveryArgs}
    {node node' : LeaderNode} {notifications : List Bool}
    (hrun : Run (TimelyStep connects args) node notifications node') :
    node'.leader = notifications.getLast?.getD node.leader := by
  induction hrun with
  | nil => rfl
  | @cons node node₁ node' leader notifications hstep _ ih =>
      obtain ⟨⟨order, hround⟩, -⟩ := hstep
      obtain ⟨-, rfl⟩ := (handleNotification_spec order leader node node₁).mp hround
      rw [ih, List.getLast?_cons, Option.getD_some]
      rfl

end LeaderNode

/-- In every run of timely notifications the loops of every configured discovery and the
write flag follow the last one, and they follow the next one exactly when it is timely. -/
theorem discovery_follows_leader {connects : List String → Int → Bool}
    {args : List DiscoveryArgs} {notifications : List Bool} {node : LeaderNode}
    (hrun : Run (LeaderNode.TimelyStep connects args) (LeaderNode.start connects args)
      notifications node) :
    (∀ leader, notifications.getLast? = some leader → LeaderNode.Follows args node leader) ∧
      ∀ order leader,
        (∃ node', EStateM.run (LeaderNode.handleNotification order leader) node = .ok () node' ∧
          LeaderNode.Follows args node' leader) ↔ node.Timely connects args leader := by
  have hleading := hrun.invariant (P := LeaderNode.Leading connects args)
    (fun _ _ _ h hstep => h.step hstep) (LeaderNode.leading_start connects args)
  refine ⟨fun leader hlast => ?_, hleading.follows_iff⟩
  have hleader := LeaderNode.leader_of_run hrun
  rw [hlast, Option.getD_some] at hleader
  rw [← hleader]
  exact hleading.follows

/-- Two discoveries on two ports. -/
def twoDiscoveries : List DiscoveryArgs :=
  [⟨8080, "zookeeper", ["localhost:2181"], 10⟩, ⟨8081, "zookeeper", ["localhost:2182"], 10⟩]

/-- A node whose clients are there. -/
def watchingNode : LeaderNode := .start (fun _ _ => true) twoDiscoveries

theorem ready_twoDiscoveries : LeaderNode.Ready (fun _ _ => true) twoDiscoveries := by
  refine ⟨fun dis hdis => ?_, fun _ _ => rfl, by decide⟩
  rcases List.mem_cons.mp hdis with rfl | hdis
  · rfl
  · rw [List.mem_singleton.mp hdis]

/-- A follower is told that it is one, and then promoted. -/
theorem discovery_follows_leader_promoted : ∃ node,
    Run (LeaderNode.TimelyStep (fun _ _ => true) twoDiscoveries) watchingNode [false, true] node ∧
      LeaderNode.Follows twoDiscoveries node true := by
  have hready := ready_twoDiscoveries
  have hfollower := (LeaderNode.handleNotification_spec LeaderNode.inKeyOrder false watchingNode
    _).mpr ⟨fun hleader => absurd hleader Bool.false_ne_true, rfl⟩
  have hreturns := (LeaderNode.handleNotification_spec LeaderNode.inKeyOrder true
    (LeaderNode.notified LeaderNode.inKeyOrder watchingNode false) _).mpr
    ⟨fun _ => hready.connected_start, rfl⟩
  have hrun : Run (LeaderNode.TimelyStep (fun _ _ => true) twoDiscoveries) watchingNode
      [false, true] _ :=
    .cons ⟨⟨_, hfollower⟩, Or.inr ⟨rfl, fun hleader => absurd hleader Bool.false_ne_true⟩⟩
      (.single ⟨⟨_, hreturns⟩, Or.inr ⟨rfl, fun _ => hready⟩⟩)
  exact ⟨_, hrun, (discovery_follows_leader hrun).1 true rfl⟩

/-- A leader that becomes a follower goes on watching. -/
theorem follower_watches : ∃ node node',
    EStateM.run (LeaderNode.handleNotification LeaderNode.inKeyOrder true) watchingNode =
      .ok () node ∧
    EStateM.run (LeaderNode.handleNotification LeaderNode.inKeyOrder false) node =
      .ok () node' ∧
    node'.loops.countP (DiscoveryLoop.watches 0) = 1 ∧
      ¬ LeaderNode.Follows twoDiscoveries node' false := by
  have hready := ready_twoDiscoveries
  have hleading := LeaderNode.leading_start (fun _ _ => true) twoDiscoveries
  have htimely : watchingNode.Timely (fun _ _ => true) twoDiscoveries true :=
    Or.inr ⟨rfl, fun _ => hready⟩
  have hfirst := (LeaderNode.handleNotification_spec LeaderNode.inKeyOrder true watchingNode
    _).mpr ⟨fun _ => hready.connected_start, rfl⟩
  have hpromoted := hleading.notified LeaderNode.inKeyOrder htimely
  have hsecond := (LeaderNode.handleNotification_spec LeaderNode.inKeyOrder false
    (LeaderNode.notified LeaderNode.inKeyOrder watchingNode true) _).mpr
    ⟨fun hleader => absurd hleader Bool.false_ne_true, rfl⟩
  have hcount : (LeaderNode.notified LeaderNode.inKeyOrder
      (LeaderNode.notified LeaderNode.inKeyOrder watchingNode true) false).loops.countP
      (DiscoveryLoop.watches 0) = 1 := by
    rw [LeaderNode.notified, List.countP_append]
    exact hpromoted.follows.watching 0 (by decide)
  refine ⟨_, _, hfirst, hsecond, hcount, fun hfollows => ?_⟩
  have hnone := hfollows.watching 0 (by decide)
  rw [hcount] at hnone
  cases hnone

end Cluster
end VermouthGateway
