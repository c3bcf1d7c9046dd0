import VermouthGateway.Balancing.Backing
import VermouthGateway.Discovery.Zookeeper
import VermouthGateway.Proxy.RateLimiter

/-!
# The events of a registry, on slices

`HandleNamespaceEvent` of the proxy ranges over the slice `GetHosts` returns
while it removes hosts.  That slice is the one the balancer works on, so the
loop meets the shifts of its own removals; the proxy is modelled here down to
the arrays, for the prefixes that are balanced by round-robin, which are the
ones the events of a registry create.

* `Holds` says what `GetHosts` and the balancer of a prefix hold.
* `Mirrors`: `Paths` has the slices that the balancers work on, and every event
  keeps it so.
* `run_removeHosts`: `REMOVE_HOSTS` leaves the survivors of the sweep.
* `removeHosts_exact_iff`: these are the listed children exactly when no two
  neighbours before the last host are both missing from the list.
-/

namespace VermouthGateway
namespace Proxy
namespace Backing

open Go Balancing.Backing

structure HttpReverseProxy where
  mu : RWMutex
  arrays : Arrays String
  paths : GoMap String Slice
  balancerType : GoMap String String
  rateLimiterType : GoMap String (List LimiterInfo)
  staticMapping : GoMap String Bool
  rateLimiters : Option (GoMap String QpsRateLimiter)
  mapping : GoMap String RoundRobin

instance : HasMutex HttpReverseProxy where
  mutex proxy := proxy.mu
  setMutex mu proxy := { proxy with mu := mu }
  mutex_setMutex _ _ := rfl
  setMutex_setMutex _ _ _ := rfl
  setMutex_mutex _ := rfl

namespace HttpReverseProxy

/-- The balancer of a prefix together with the arrays. -/
def held (prefixPath : String) (proxy : HttpReverseProxy) : Option (Held RoundRobin) :=
  (proxy.mapping.lookup prefixPath).map fun r => ⟨r, proxy.arrays⟩

def putHeld (proxy : HttpReverseProxy) (prefixPath : String) (r : Held RoundRobin) :
    HttpReverseProxy :=
  { proxy with mapping := proxy.mapping.insert prefixPath r.self, arrays := r.arrays }

/-- Call a method of the balancer of a prefix, which is nil when the prefix is
not routed. -/
def onBalancer {α : Type} (prefixPath : String) (body : Eff (Held RoundRobin) α) :
    Eff HttpReverseProxy α :=
  focus (held prefixPath) (fun r proxy => proxy.putHeld prefixPath r) body

/-- `GetHosts`: the slice itself, nil for a missing prefix. -/
def getHosts (prefixPath : String) : Eff HttpReverseProxy Slice := withRLock do
  let proxy ← get
  pure (proxy.paths.get prefixPath Slice.nil)

/-- Change a balancer and store its slice in `Paths`. -/
def updateHosts (prefixPath : String) (body : Eff (Held RoundRobin) Unit) :
    Eff HttpReverseProxy Unit := withLock do
  onBalancer prefixPath body
  let r ← onBalancer prefixPath get
  modify fun proxy => { proxy with paths := proxy.paths.insert prefixPath r.self.hosts }

def addHost (prefixPath host : String) : Eff HttpReverseProxy Unit :=
  updateHosts prefixPath (RoundRobin.add host)

def removeHost (prefixPath host : String) : Eff HttpReverseProxy Unit :=
  updateHosts prefixPath (RoundRobin.remove host)

/-- `AddPrefix` with the algorithm of the events. -/
def addPrefix (prefixPath : String) (hosts : Slice) (isStatic : Bool) :
    Eff HttpReverseProxy Unit := withLock do
  let proxy ← get
  if prefixPath ∈ proxy.mapping then pure ()
  else
    set { proxy with
      staticMapping := proxy.staticMapping.insert prefixPath isStatic
      mapping := proxy.mapping.insert prefixPath (newRoundRobin hosts)
      balancerType := proxy.balancerType.insert prefixPath Balancing.typeRoundRobin
      paths := proxy.paths.insert prefixPath hosts }

def removePrefix (prefixPath : String) : Eff HttpReverseProxy Unit := withLock do
  modify fun proxy =>
    { proxy with
      paths := proxy.paths.erase prefixPath
      balancerType := proxy.balancerType.erase prefixPath
      rateLimiters := proxy.rateLimiters.map fun limiters => limiters.erase prefixPath
      rateLimiterType := proxy.rateLimiterType.erase prefixPath
      mapping := proxy.mapping.erase prefixPath }

/-- One round of the loop of `REMOVE_HOSTS`: the header of the slice is that of
the start, its cell is read now. -/
def removeUnlessVisited (e : Discovery.Event) (hosts : Slice) (i : Nat) :
    Eff HttpReverseProxy Unit := do
  let proxy ← get
  let v := proxy.arrays.cells hosts.array (hosts.offset + i)
  if v ∈ e.children then pure () else removeHost e.serviceName v

/-- One round of `HandleNamespaceEvent`. -/
def handleNamespaceEvent (e : Discovery.Event) : Eff HttpReverseProxy Unit :=
  match e.opt with
  | .addHost => addHost e.serviceName e.host
  | .removeHost => removeHost e.serviceName e.host
  | .addService => addPrefix e.serviceName Slice.nil false
  | .removeService => removePrefix e.serviceName
  | .removeHosts => do
      let hosts ← getHosts e.serviceName
      forEach (List.range hosts.len) (removeUnlessVisited e hosts)

end HttpReverseProxy

open Backing.HttpReverseProxy

/-- The prefix is balanced by round-robin over `hosts`, `GetHosts` returns the
slice of its balancer, and nobody is in a locked section. -/
structure Holds (proxy : HttpReverseProxy) (prefixPath : String) (hosts : List String) : Prop where
  free : proxy.mu = .free
  routed : ∃ r, proxy.mapping.lookup prefixPath = some r ∧ r.mu = .free ∧
    proxy.paths.lookup prefixPath = some r.hosts ∧ proxy.arrays.elems r.hosts = hosts

/-- No two neighbours before the last host are both missing from the list. -/
def NoAdjacentMissing (children hosts : List String) : Prop :=
  hosts.dropLast.IsChain fun host next => host ∈ children ∨ next ∈ children

/-! ## One removal -/

variable {proxy : HttpReverseProxy} {prefixPath : String} {r : RoundRobin}

/-- The proxy with a changed balancer, and its slice in `Paths`. -/
def HttpReverseProxy.withHeld (proxy : HttpReverseProxy) (prefixPath : String)
    (r : Held RoundRobin) : HttpReverseProxy :=
  { proxy.putHeld prefixPath r with paths := proxy.paths.insert prefixPath r.self.hosts }

theorem run_onBalancer {α : Type} {body : Eff (Held RoundRobin) α} {r' : Held RoundRobin}
    {answer : α} (hlookup : proxy.mapping.lookup prefixPath = some r)
    (hbody : EStateM.run body ⟨r, proxy.arrays⟩ = .ok answer r') :
    EStateM.run (onBalancer prefixPath body) proxy =
      .ok answer (proxy.putHeld prefixPath r') := by
  have hheld : held prefixPath proxy = some ⟨r, proxy.arrays⟩ := by
    rw [held, hlookup]
    rfl
  exact (run_focus_some hheld).trans (by rw [hbody, embed_ok])

theorem run_updateHosts {body : Eff (Held RoundRobin) Unit} {r' : Held RoundRobin}
    (hfree : proxy.mu = .free) (hlookup : proxy.mapping.lookup prefixPath = some r)
    (hbody : EStateM.run body ⟨r, proxy.arrays⟩ = .ok () r') :
    EStateM.run (updateHosts prefixPath body) proxy = .ok () (proxy.withHeld prefixPath r') := by
  have hmutex : HasMutex.mutex proxy = .free := hfree
  have hcall : EStateM.run (onBalancer prefixPath body) (locked proxy) =
      .ok () ((locked proxy).putHeld prefixPath r') := run_onBalancer hlookup hbody
  have hread : ((locked proxy).putHeld prefixPath r').mapping.lookup prefixPath = some r'.self :=
    Finmap.lookup_insert _
  rw [updateHosts, run_withLock_free hmutex, EStateM.run_bind, hcall]
  dsimp only
  rw [EStateM.run_bind, run_onBalancer hread (EStateM.run_get _)]
  dsimp only
  rw [run_modify, released_ok, withHeld, putHeld, putHeld, putHeld]
  dsimp only
  rw [Finmap.insert_insert]
  obtain ⟨mu, arrays, paths, balancerType, rateLimiterType, staticMapping, rateLimiters,
    mapping⟩ := proxy
  obtain rfl : mu = .free := hfree
  rfl

theorem run_removeHost (hfree : proxy.mu = .free)
    (hlookup : proxy.mapping.lookup prefixPath = some r) (hr : r.mu = .free) (host : String) :
    EStateM.run (removeHost prefixPath host) proxy =
      .ok () (proxy.withHeld prefixPath (Held.removed ⟨r, proxy.arrays⟩ host)) :=
  run_updateHosts hfree hlookup (run_remove hr host)

/-! ## The slices in `Paths` -/

/-- `Paths` has, for every prefix, the slice its balancer works on. -/
def Mirrors (proxy : HttpReverseProxy) : Prop :=
  ∀ q, proxy.paths.lookup q = (proxy.mapping.lookup q).map RoundRobin.hosts

theorem run_updateHosts_ok {body : Eff (Held RoundRobin) Unit} {proxy' : HttpReverseProxy}
    (hrun : EStateM.run (updateHosts prefixPath body) proxy = .ok () proxy') :
    ∃ r', proxy' = proxy.withHeld prefixPath r' := by
  obtain ⟨hfree, proxy₁, hbody, -⟩ := run_withLock_ok hrun
  obtain ⟨_, _, hcall, -⟩ := run_bind_ok hbody
  obtain ⟨⟨r, arrays⟩, r', hheld, hbody, -⟩ := run_focus_ok hcall
  obtain ⟨r₀, hlookup, heq⟩ := Option.map_eq_some_iff.mp hheld
  cases heq
  have hupdate := run_updateHosts hfree hlookup hbody
  rw [hrun] at hupdate
  cases hupdate
  exact ⟨r', rfl⟩

theorem Mirrors.withHeld (h : Mirrors proxy) (prefixPath : String) (r : Held RoundRobin) :
    Mirrors (proxy.withHeld prefixPath r) := by
  intro q
  rw [HttpReverseProxy.withHeld, putHeld]
  dsimp only
  rw [GoMap.lookup_insert_eq, GoMap.lookup_insert_eq, h q]
  split <;> rfl

theorem Mirrors.updateHosts {body : Eff (Held RoundRobin) Unit} {proxy' : HttpReverseProxy}
    (h : Mirrors proxy)
    (hrun : EStateM.run (HttpReverseProxy.updateHosts prefixPath body) proxy = .ok () proxy') :
    Mirrors proxy' := by
  obtain ⟨r', rfl⟩ := run_updateHosts_ok hrun
  exact h.withHeld prefixPath r'

/-- Every event keeps the slices of `Paths` those of the balancers. -/
theorem Mirrors.handleNamespaceEvent {e : Discovery.Event} {proxy' : HttpReverseProxy}
    (h : Mirrors proxy)
    (hrun : EStateM.run (HttpReverseProxy.handleNamespaceEvent e) proxy = .ok () proxy') :
    Mirrors proxy' := by
  rw [HttpReverseProxy.handleNamespaceEvent] at hrun
  cases hopt : e.opt with
  | addHost =>
      rw [hopt] at hrun
      exact h.updateHosts hrun
  | removeHost =>
      rw [hopt] at hrun
      exact h.updateHosts hrun
  | addService =>
      rw [hopt] at hrun
      obtain ⟨-, proxy₁, hbody, rfl⟩ := run_withLock_ok hrun
      rw [EStateM.run_bind, EStateM.run_get] at hbody
      dsimp only at hbody
      rw [run_ite] at hbody
      split at hbody
      · cases hbody
        exact h
      · cases hbody
        intro q
        show (proxy.paths.insert _ _).lookup q = ((proxy.mapping.insert _ _).lookup q).map _
        rw [GoMap.lookup_insert_eq, GoMap.lookup_insert_eq, h q]
        split <;> rfl
  | removeService =>
      rw [hopt] at hrun
      obtain ⟨-, proxy₁, hbody, rfl⟩ := run_withLock_ok hrun
      cases hbody
      intro q
      show (proxy.paths.erase _).lookup q = ((proxy.mapping.erase _).lookup q).map _
      rw [GoMap.lookup_erase_eq, GoMap.lookup_erase_eq, h q]
      split <;> rfl
  | removeHosts =>
      rw [hopt] at hrun
      obtain ⟨hosts, proxy₁, hget, hloop⟩ := run_bind_ok hrun
      have hsame : Mirrors proxy₁ := by
        cases hwriter : proxy.mu.writer with
        | true =>
            rw [getHosts, run_withRLock_held hwriter] at hget
            cases hget
        | false =>
            rw [getHosts, run_withRLock hwriter] at hget
            cases hget
            exact h
      refine run_forEach_ok hloop hsame ?_
      intro i _ proxy₂ _ proxy₃ h₂ hround
      rw [removeUnlessVisited, EStateM.run_bind, EStateM.run_get] at hround
      dsimp only at hround
      rw [run_ite] at hround
      split at hround
      · cases hround
        exact h₂
      · exact h₂.updateHosts hround

/-! ## The loop -/

/-- In the middle of the loop over `old`: the hosts of the prefix and the cells
of `old` are the state of a sweep. -/
structure Sweeping (proxy : HttpReverseProxy) (prefixPath : String) (old : Slice)
    (s : Sweep.State String) : Prop where
  free : proxy.mu = .free
  routed : ∃ r, proxy.mapping.lookup prefixPath = some r ∧ r.mu = .free ∧
    proxy.paths.lookup prefixPath = some r.hosts ∧
    r.hosts.array = old.array ∧ r.hosts.offset = old.offset ∧ r.hosts.len ≤ old.len ∧
    (Held.mk r proxy.arrays).cells old.len = s

/-- The loop keeps the hosts that are children. -/
def isChild (children : List String) (host : String) : Bool := decide (host ∈ children)

theorem run_removeUnlessVisited {e : Discovery.Event} {old : Slice} {s : Sweep.State String}
    (h : Sweeping proxy e.serviceName old s) {i : Nat} (hi : i < old.len) :
    ∃ proxy', EStateM.run (removeUnlessVisited e old i) proxy = .ok () proxy' ∧
      Sweeping proxy' e.serviceName old (s.visit (isChild e.children) i) := by
  obtain ⟨r, hlookup, hr, hpaths, harray, hoffset, hlen, rfl⟩ := h.routed
  have hcell : ((Held.mk r proxy.arrays).cells old.len).cells[i]? =
      some (proxy.arrays.cells old.array (old.offset + i)) := by
    rw [Held.cells, Arrays.getElem?_window hi]
    dsimp only
    rw [harray, hoffset]
  rw [removeUnlessVisited, EStateM.run_bind, EStateM.run_get]
  dsimp only
  rw [run_ite]
  generalize proxy.arrays.cells old.array (old.offset + i) = v at hcell ⊢
  by_cases hchild : v ∈ e.children
  · rw [if_pos hchild, Sweep.State.visit_keep hcell (decide_eq_true hchild)]
    exact ⟨proxy, rfl, h⟩
  · have hdrop : ¬ isChild e.children v = true := by simpa [isChild] using hchild
    rw [if_neg hchild, run_removeHost h.free hlookup hr, Sweep.State.visit_drop hcell hdrop]
    -- the header moves its end only, so the cells stay those of the sweep
    have hself : (Held.removed ⟨r, proxy.arrays⟩ v).self.mu = .free ∧
        (Held.removed ⟨r, proxy.arrays⟩ v).self.hosts.array = old.array ∧
        (Held.removed ⟨r, proxy.arrays⟩ v).self.hosts.offset = old.offset := by
      rw [Held.removed]
      split <;> exact ⟨hr, harray, hoffset⟩
    exact ⟨_, rfl, h.free, _, Finmap.lookup_insert _, hself.1, Finmap.lookup_insert _,
      hself.2.1, hself.2.2, (len_removed_le _ v).trans hlen, cells_removed _ v hlen⟩

/-- What the rounds leave is the sweep. -/
theorem run_rounds {e : Discovery.Event} {old : Slice} {rounds : List Nat}
    {s : Sweep.State String} (h : Sweeping proxy e.serviceName old s)
    (hrounds : ∀ i ∈ rounds, i < old.len) :
    ∃ proxy', EStateM.run (forEach rounds (removeUnlessVisited e old)) proxy = .ok () proxy' ∧
      Sweeping proxy' e.serviceName old
        (rounds.foldl (Sweep.State.visit (isChild e.children)) s) := by
  induction rounds generalizing proxy s with
  | nil => exact ⟨proxy, rfl, h⟩
  | cons i rounds ih =>
      obtain ⟨proxy₁, hround, h₁⟩ := run_removeUnlessVisited h (hrounds i List.mem_cons_self)
      rw [run_forEach_cons, hround]
      exact ih h₁ fun j hj => hrounds j (List.mem_cons_of_mem i hj)

theorem run_getHosts (hfree : proxy.mu = .free) (prefixPath : String) :
    EStateM.run (getHosts prefixPath) proxy =
      .ok (proxy.paths.get prefixPath Slice.nil) proxy := by
  obtain ⟨mu, arrays, paths, balancerType, rateLimiterType, staticMapping, rateLimiters,
    mapping⟩ := proxy
  obtain rfl : mu = .free := hfree
  rfl

/-- `REMOVE_HOSTS` leaves the survivors of a sweep over the hosts. -/
theorem run_removeHosts {prefixPath : String} {hosts : List String}
    (h : Holds proxy prefixPath hosts) (hnodup : hosts.Nodup) (children : List String) :
    ∃ proxy', EStateM.run (handleNamespaceEvent
        { opt := .removeHosts, serviceName := prefixPath, children := children }) proxy =
          .ok () proxy' ∧
      Holds proxy' prefixPath (Sweep.survivors (isChild children) hosts) := by
  obtain ⟨r, hlookup, hr, hpaths, helems⟩ := h.routed
  have hstart : Sweeping proxy prefixPath r.hosts ⟨hosts, hosts.length⟩ := by
    refine ⟨h.free, r, hlookup, hr, hpaths, rfl, rfl, Nat.le_refl _, ?_⟩
    rw [← helems, Arrays.length_elems]
    rfl
  obtain ⟨proxy', hrun, hend⟩ := run_rounds
    (e := { opt := .removeHosts, serviceName := prefixPath, children := children }) hstart
    (fun i hi => List.mem_range.mp hi)
  refine ⟨proxy', ?_, hend.free, ?_⟩
  · rw [handleNamespaceEvent]
    dsimp only
    rw [EStateM.run_bind, run_getHosts h.free, GoMap.get_of_lookup hpaths]
    exact hrun
  · obtain ⟨r', hlookup', hr', hpaths', -, -, hlen, hcells⟩ := hend.routed
    refine ⟨r', hlookup', hr', hpaths', ?_⟩
    have hlist := list_cells ⟨r', proxy'.arrays⟩ hlen
    have hlength : r.hosts.len = hosts.length := by rw [← helems, Arrays.length_elems]
    rw [hcells, hlength] at hlist
    exact hlist.symm.trans (Sweep.list_sweep hnodup)

theorem Holds.unique {hosts hosts' : List String} (h : Holds proxy prefixPath hosts)
    (h' : Holds proxy prefixPath hosts') : hosts = hosts' := by
  obtain ⟨r, hlookup, -, -, rfl⟩ := h.routed
  obtain ⟨r', hlookup', -, -, rfl⟩ := h'.routed
  cases hlookup.symm.trans hlookup'
  rfl

/-- After `REMOVE_HOSTS` the prefix holds the hosts that are listed, exactly
when no two neighbours before the last host are both missing from the list. -/
theorem removeHosts_exact_iff {hosts : List String} (h : Holds proxy prefixPath hosts)
    (hnodup : hosts.Nodup) (children : List String) :
    ∃ proxy', EStateM.run (handleNamespaceEvent
        { opt := .removeHosts, serviceName := prefixPath, children := children }) proxy =
          .ok () proxy' ∧
      (Holds proxy' prefixPath (hosts.filter (· ∈ children)) ↔
        NoAdjacentMissing children hosts) := by
  obtain ⟨proxy', hrun, hend⟩ := run_removeHosts h hnodup children
  have hexact := Sweep.survivors_eq_filter_iff (isChild children) hosts
  simp only [isChild, decide_eq_true_eq] at hexact
  refine ⟨proxy', hrun, ?_⟩
  rw [NoAdjacentMissing, ← hexact]
  constructor
  · intro hfilter
    exact hend.unique hfilter
  · intro heq
    exact heq ▸ hend

/-- The prefix `/api` over three hosts. -/
def threeHosts : HttpReverseProxy where
  mu := .free
  arrays :=
    { cells := fun _ i => ["10.0.0.1:80", "10.0.0.2:80", "10.0.0.3:80"].getD i ""
      next := 1
      spare := fun _ => 0 }
  paths := Finmap.singleton "/api" ⟨0, 0, 3, 3, Nat.le_refl 3⟩
  balancerType := Finmap.singleton "/api" Balancing.typeRoundRobin
  rateLimiterType := ∅
  staticMapping := Finmap.singleton "/api" false
  rateLimiters := some ∅
  mapping := Finmap.singleton "/api" (newRoundRobin ⟨0, 0, 3, 3, Nat.le_refl 3⟩)

theorem holds_threeHosts :
    Holds threeHosts "/api" ["10.0.0.1:80", "10.0.0.2:80", "10.0.0.3:80"] :=
  ⟨rfl, _, rfl, rfl, rfl, rfl⟩

theorem removeHosts_exact_iff_middle :
    ∃ proxy', EStateM.run (handleNamespaceEvent
        { opt := .removeHosts, serviceName := "/api"
          children := ["10.0.0.1:80", "10.0.0.3:80"] }) threeHosts = .ok () proxy' ∧
      (Holds proxy' "/api" ["10.0.0.1:80", "10.0.0.3:80"] ↔
        NoAdjacentMissing ["10.0.0.1:80", "10.0.0.3:80"]
          ["10.0.0.1:80", "10.0.0.2:80", "10.0.0.3:80"]) :=
  removeHosts_exact_iff holds_threeHosts (by decide) _

/-- Of three hosts that are all gone the second one stays. -/
theorem removeHosts_skips : ¬ ∀ (proxy : HttpReverseProxy) (prefixPath : String)
    (hosts children : List String), Holds proxy prefixPath hosts → hosts.Nodup →
      ∃ proxy', EStateM.run (handleNamespaceEvent
          { opt := .removeHosts, serviceName := prefixPath, children := children }) proxy =
            .ok () proxy' ∧
        Holds proxy' prefixPath (hosts.filter (· ∈ children)) := by
  intro hall
  obtain ⟨proxy', hrun, hnone⟩ := hall threeHosts "/api" _ [] holds_threeHosts (by decide)
  obtain ⟨proxy₁, hrun₁, hsecond⟩ := run_removeHosts holds_threeHosts (by decide) []
  rw [hrun] at hrun₁
  cases hrun₁
  exact absurd (hsecond.unique hnone) (by decide)

end Backing
end Proxy
end VermouthGateway
