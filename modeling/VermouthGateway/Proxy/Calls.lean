import VermouthGateway.Proxy.HttpReverseProxy

/-!
# What a call on the proxy does

For every method of the proxy two facts: when it returns (`completes_…_iff`),
and what it leaves when it does (`run_…_ok`).  The second is an inversion: it
names the state the call found and gives the state after it as one record
update.  The rest of the development argues from these facts only.
-/

namespace VermouthGateway
namespace Proxy

open Go Balancing Acl

namespace HttpReverseProxy

variable {proxy proxy' : HttpReverseProxy} {prefixPath : String}

/-! ## Components -/

theorem run_onPrefixer_none {α : Type} (h : proxy.prefixMapping = none)
    (body : Eff HashPrefixer α) :
    EStateM.run (onPrefixer body) proxy = .error (.panic .nilDereference) proxy :=
  run_focus_none h

theorem run_onPrefixer_some {α : Type} {p : HashPrefixer} (h : proxy.prefixMapping = some p)
    (body : Eff HashPrefixer α) :
    EStateM.run (onPrefixer body) proxy =
      embed (fun p' => { proxy with prefixMapping := some p' }) (EStateM.run body p) :=
  run_focus_some h

theorem set_prefixMapping {p : HashPrefixer} (h : proxy.prefixMapping = some p) :
    { proxy with prefixMapping := some p } = proxy := by
  rw [← h]

/-- Reading the router changes nothing. -/
theorem run_prefixer {p : HashPrefixer} (h : proxy.prefixMapping = some p) :
    EStateM.run (onPrefixer get) proxy = .ok p proxy := by
  rw [run_onPrefixer_some h, EStateM.run_get, embed_ok, set_prefixMapping h]

/-- Reading a balancer changes nothing; a nil one is dereferenced. -/
theorem run_getBalancer {p : HashPrefixer} (h : proxy.prefixMapping = some p) :
    EStateM.run (getBalancer prefixPath) proxy =
      match p.getBalancer prefixPath with
      | none => .error (.panic .nilDereference) proxy
      | some b => .ok b proxy := by
  rw [getBalancer, run_onPrefixer_some h, HashPrefixer.run_withBalancer]
  cases hb : p.getBalancer prefixPath with
  | none =>
      dsimp only
      rw [embed_error, set_prefixMapping h]
  | some b =>
      dsimp only
      rw [EStateM.run_get, embed_ok, GoMap.insert_lookup_self hb, embed_ok,
        set_prefixMapping h]

/-! ## Start, stop and the static flag -/

theorem run_start (h : proxy.mu = .free) :
    EStateM.run start proxy = .ok () { proxy with available := true } := by
  obtain ⟨mu⟩ := proxy
  obtain rfl : mu = .free := h
  rfl

theorem run_stop (h : proxy.mu = .free) :
    EStateM.run stop proxy = .ok () { proxy with available := false } := by
  obtain ⟨mu⟩ := proxy
  obtain rfl : mu = .free := h
  rfl

theorem run_changeStatic (h : proxy.mu = .free) :
    EStateM.run (changeStatic prefixPath) proxy =
      .ok () { proxy with
        staticMapping := proxy.staticMapping.insert prefixPath
          (!proxy.staticMapping.get prefixPath false) } := by
  obtain ⟨mu⟩ := proxy
  obtain rfl : mu = .free := h
  rfl

/-! ## Prefixes -/

/-- The proxy with a new prefix. -/
def withPrefix (proxy : HttpReverseProxy) (p : HashPrefixer) (prefixPath algo : String)
    (isStatic : Bool) (b : Balancer) : HttpReverseProxy :=
  { proxy with
    staticMapping := proxy.staticMapping.insert prefixPath isStatic
    balancerType := proxy.balancerType.insert prefixPath algo
    paths := proxy.paths.insert prefixPath b.hosts
    prefixMapping := some ⟨p.mapping.insert prefixPath b⟩ }

theorem run_addPrefix {p : HashPrefixer} (h : proxy.mu = .free)
    (hp : proxy.prefixMapping = some p) (algo : String) (hosts : List String)
    (isStatic : Bool) (hnew : prefixPath ∉ p.mapping) :
    EStateM.run (addPrefix prefixPath algo hosts isStatic) proxy =
      match build algo hosts with
      | .ok b => .ok () (proxy.withPrefix p prefixPath algo isStatic b)
      | .error _ => .error (.panic .nilDereference)
          { proxy with
            staticMapping := proxy.staticMapping.insert prefixPath isStatic
            balancerType := proxy.balancerType.insert prefixPath algo } := by
  obtain ⟨mu⟩ := proxy
  obtain rfl : mu = .free := h
  obtain rfl : _ = some p := hp
  rw [addPrefix, run_withLock_free rfl, EStateM.run_bind, run_prefixer (p := p) rfl]
  dsimp only
  rw [run_ite, if_neg hnew, EStateM.run_bind, run_modify]
  dsimp only
  rw [EStateM.run_bind, run_onPrefixer_some (p := p) rfl, run_modify, embed_ok]
  dsimp only
  rw [EStateM.run_bind, run_modify]
  dsimp only
  rw [EStateM.run_bind, run_getBalancer (p := p.add prefixPath algo hosts) rfl,
    HashPrefixer.getBalancer, HashPrefixer.add]
  cases hbuild : build algo hosts with
  -- `Add` has stored nothing, so the balancer of the prefix is nil
  | error e =>
      dsimp only
      rw [Finmap.lookup_eq_none.mpr hnew]
      rfl
  | ok b =>
      dsimp only
      rw [Finmap.lookup_insert]
      rfl

theorem run_addPrefix_routed {p : HashPrefixer} (h : proxy.mu = .free)
    (hp : proxy.prefixMapping = some p) (algo : String) (hosts : List String)
    (isStatic : Bool) (hold : prefixPath ∈ p.mapping) :
    EStateM.run (addPrefix prefixPath algo hosts isStatic) proxy = .ok () proxy := by
  obtain ⟨mu⟩ := proxy
  obtain rfl : mu = .free := h
  obtain rfl : _ = some p := hp
  rw [addPrefix, run_withLock_free rfl, EStateM.run_bind, run_prefixer (p := p) rfl]
  dsimp only
  rw [run_ite, if_pos hold]
  rfl

/-- `AddPrefix` needs the lock and a router; on a new prefix it also needs a
supported algorithm, since it dereferences the balancer it failed to make. -/
theorem completes_addPrefix_iff (algo : String) (hosts : List String) (isStatic : Bool) :
    Completes (EStateM.run (addPrefix prefixPath algo hosts isStatic) proxy) ↔
      proxy.mu = .free ∧ ∃ p, proxy.prefixMapping = some p ∧
        (prefixPath ∈ p.mapping ∨ Supported algo) := by
  by_cases h : proxy.mu = .free
  · cases hp : proxy.prefixMapping with
    | none =>
        rw [addPrefix, run_withLock_free h, completes_released, EStateM.run_bind,
          run_onPrefixer_none (show (locked proxy).prefixMapping = none from hp)]
        simp
    | some p =>
        by_cases hold : prefixPath ∈ p.mapping
        · rw [run_addPrefix_routed h hp algo hosts isStatic hold]
          simp [h, hold]
        · rw [run_addPrefix h hp algo hosts isStatic hold]
          cases hbuild : build algo hosts with
          | ok b => simp [h, supported_of_build hbuild]
          | error e => simp [h, hold, (build_error_iff algo hosts).mp ⟨e, hbuild⟩]
  · rw [addPrefix, run_withLock_held h]
    simp [h]

theorem run_addPrefix_ok {algo : String} {hosts : List String} {isStatic : Bool}
    (hrun : EStateM.run (addPrefix prefixPath algo hosts isStatic) proxy = .ok () proxy') :
    proxy.mu = .free ∧ ∃ p, proxy.prefixMapping = some p ∧
      ((prefixPath ∈ p.mapping ∧ proxy' = proxy) ∨
        (prefixPath ∉ p.mapping ∧ ∃ b, build algo hosts = .ok b ∧
          proxy' = proxy.withPrefix p prefixPath algo isStatic b)) := by
  have hcomplete : Completes (EStateM.run (addPrefix prefixPath algo hosts isStatic) proxy) := by
    rw [hrun]
    trivial
  obtain ⟨h, p, hp, -⟩ := (completes_addPrefix_iff algo hosts isStatic).mp hcomplete
  refine ⟨h, p, hp, ?_⟩
  by_cases hold : prefixPath ∈ p.mapping
  · rw [run_addPrefix_routed h hp algo hosts isStatic hold] at hrun
    cases hrun
    exact Or.inl ⟨hold, rfl⟩
  · rw [run_addPrefix h hp algo hosts isStatic hold] at hrun
    cases hbuild : build algo hosts with
    | ok b =>
        rw [hbuild] at hrun
        cases hrun
        exact Or.inr ⟨hold, b, rfl, rfl⟩
    | error e =>
        rw [hbuild] at hrun
        cases hrun

/-- The proxy without a prefix. -/
def withoutPrefix (proxy : HttpReverseProxy) (p : HashPrefixer) (prefixPath : String) :
    HttpReverseProxy :=
  { proxy with
    paths := proxy.paths.erase prefixPath
    balancerType := proxy.balancerType.erase prefixPath
    rateLimiters := proxy.rateLimiters.map fun limiters => limiters.erase prefixPath
    rateLimiterType := proxy.rateLimiterType.erase prefixPath
    prefixMapping := some (p.remove prefixPath) }

theorem run_removePrefix {p : HashPrefixer} (h : proxy.mu = .free)
    (hp : proxy.prefixMapping = some p) :
    EStateM.run (removePrefix prefixPath) proxy =
      .ok () (proxy.withoutPrefix p prefixPath) := by
  obtain ⟨mu⟩ := proxy
  obtain rfl : mu = .free := h
  obtain rfl : _ = some p := hp
  rw [removePrefix, run_withLock_free rfl, EStateM.run_bind, run_modify]
  dsimp only
  rw [run_onPrefixer_some (p := p) rfl]
  rfl

theorem completes_removePrefix_iff :
    Completes (EStateM.run (removePrefix prefixPath) proxy) ↔
      proxy.mu = .free ∧ proxy.prefixMapping.isSome := by
  by_cases h : proxy.mu = .free
  · cases hp : proxy.prefixMapping with
    | none =>
        obtain ⟨mu⟩ := proxy
        obtain rfl : _ = none := hp
        rw [removePrefix, run_withLock_free h, completes_released, EStateM.run_bind, run_modify]
        dsimp only
        rw [run_onPrefixer_none rfl]
        simp
    | some p =>
        rw [run_removePrefix h hp]
        simp [h]
  · rw [removePrefix, run_withLock_held h]
    simp [h]

theorem run_removePrefix_ok
    (hrun : EStateM.run (removePrefix prefixPath) proxy = .ok () proxy') :
    proxy.mu = .free ∧ ∃ p, proxy.prefixMapping = some p ∧
      proxy' = proxy.withoutPrefix p prefixPath := by
  obtain ⟨h, hsome⟩ := completes_removePrefix_iff.mp (by rw [hrun]; trivial)
  obtain ⟨p, hp⟩ := Option.isSome_iff_exists.mp hsome
  rw [run_removePrefix h hp] at hrun
  cases hrun
  exact ⟨h, p, hp, rfl⟩

/-! ## Hosts -/

/-- The proxy with another balancer on a prefix. -/
def withBalancer (proxy : HttpReverseProxy) (p : HashPrefixer) (prefixPath : String)
    (b : Balancer) : HttpReverseProxy :=
  { proxy with
    paths := proxy.paths.insert prefixPath b.hosts
    prefixMapping := some ⟨p.mapping.insert prefixPath b⟩ }

theorem run_updateHosts {p : HashPrefixer} (h : proxy.mu = .free)
    (hp : proxy.prefixMapping = some p) (body : Eff Balancer Unit) :
    EStateM.run (updateHosts prefixPath body) proxy =
      match p.getBalancer prefixPath with
      | none => .error (.panic .nilDereference) proxy
      | some b =>
          match EStateM.run body b with
          | .ok _ b' => .ok () (proxy.withBalancer p prefixPath b')
          | .error e b' => released unlock (.error e
              { locked proxy with prefixMapping := some ⟨p.mapping.insert prefixPath b'⟩ }) := by
  obtain ⟨mu⟩ := proxy
  obtain rfl : mu = .free := h
  obtain rfl : _ = some p := hp
  rw [updateHosts, run_withLock_free rfl, EStateM.run_bind, run_onPrefixer_some (p := p) rfl,
    HashPrefixer.run_withBalancer]
  cases p.getBalancer prefixPath with
  | none => rfl
  | some b =>
      dsimp only
      cases EStateM.run body b with
      | error e b' => rfl
      | ok a b' =>
          rw [embed_ok, embed_ok]
          dsimp only
          rw [EStateM.run_bind, run_getBalancer rfl, HashPrefixer.getBalancer,
            Finmap.lookup_insert]
          rfl

theorem completes_updateHosts_iff (body : Eff Balancer Unit) :
    Completes (EStateM.run (updateHosts prefixPath body) proxy) ↔
      proxy.mu = .free ∧ ∃ p b, proxy.prefixMapping = some p ∧
        p.getBalancer prefixPath = some b ∧ Completes (EStateM.run body b) := by
  by_cases h : proxy.mu = .free
  · cases hp : proxy.prefixMapping with
    | none =>
        rw [updateHosts, run_withLock_free h, completes_released, EStateM.run_bind,
          run_onPrefixer_none (show (locked proxy).prefixMapping = none from hp)]
        simp
    | some p =>
        rw [run_updateHosts h hp]
        cases hb : p.getBalancer prefixPath with
        | none => simp [hb]
        | some b =>
            dsimp only
            cases hbody : EStateM.run body b with
            | ok a b' => simp [h, hb, hbody]
            | error e b' => simp [hb, hbody]
  · rw [updateHosts, run_withLock_held h]
    simp [h]

theorem run_updateHosts_ok {body : Eff Balancer Unit}
    (hrun : EStateM.run (updateHosts prefixPath body) proxy = .ok () proxy') :
    proxy.mu = .free ∧ ∃ p b b', proxy.prefixMapping = some p ∧
      p.getBalancer prefixPath = some b ∧ EStateM.run body b = .ok () b' ∧
      proxy' = proxy.withBalancer p prefixPath b' := by
  have hcomplete : Completes (EStateM.run (updateHosts prefixPath body) proxy) := by
    rw [hrun]
    trivial
  obtain ⟨h, p, b, hp, hb, hbody⟩ := (completes_updateHosts_iff body).mp hcomplete
  obtain ⟨a, b', hbody⟩ := completes_iff.mp hbody
  rw [run_updateHosts h hp, hb] at hrun
  dsimp only at hrun
  rw [hbody] at hrun
  cases hrun
  exact ⟨h, p, b, b', hp, hb, hbody, rfl⟩

/-- `GetHosts` reads and changes nothing. -/
theorem run_lockedGetHosts (h : proxy.mu.writer = false) :
    EStateM.run (lockedGetHosts prefixPath) proxy = .ok (proxy.getHosts prefixPath) proxy := by
  obtain ⟨writer, readers⟩ := proxy.mu
  rw [lockedGetHosts, run_withRLock h, EStateM.run_bind, EStateM.run_get]
  rfl

theorem run_lockedGetHosts_ok {hosts : List String}
    (hrun : EStateM.run (lockedGetHosts prefixPath) proxy = .ok hosts proxy') :
    proxy' = proxy ∧ hosts = proxy.getHosts prefixPath := by
  cases hwriter : proxy.mu.writer with
  | true =>
      rw [lockedGetHosts, run_withRLock_held hwriter] at hrun
      cases hrun
  | false =>
      rw [run_lockedGetHosts hwriter] at hrun
      cases hrun
      exact ⟨rfl, rfl⟩

/-- `checkPrefixExists` reads under the lock and changes nothing. -/
theorem run_checkPrefixExists (h : proxy.mu = .free) :
    EStateM.run (checkPrefixExists prefixPath) proxy =
      .ok (proxy.prefixExists prefixPath) proxy := by
  obtain ⟨mu⟩ := proxy
  obtain rfl : mu = .free := h
  rfl

theorem run_checkPrefixExists_ok {pathExists : Bool}
    (hrun : EStateM.run (checkPrefixExists prefixPath) proxy = .ok pathExists proxy') :
    proxy' = proxy ∧ pathExists = proxy.prefixExists prefixPath := by
  obtain ⟨h, -⟩ := run_withLock_ok hrun
  rw [run_checkPrefixExists h] at hrun
  cases hrun
  exact ⟨rfl, rfl⟩

/-! ## Black lists -/

theorem run_onAcl {α : Type} (body : Eff RadixTree α) (proxy : HttpReverseProxy) :
    EStateM.run (onAcl body) proxy =
      embed (fun tree => { proxy with acl := tree }) (EStateM.run body proxy.acl) :=
  run_focus_some (t := proxy.acl) rfl

/-- A loop of calls on the tree is a loop over the tree. -/
theorem run_forEach_onAcl {α : Type} (call : String → Eff RadixTree α) (ips : List String)
    (proxy : HttpReverseProxy) :
    EStateM.run (forEach ips fun ip => onAcl (call ip)) proxy =
      embed (fun tree => { proxy with acl := tree })
        (EStateM.run (forEach ips call) proxy.acl) := by
  induction ips generalizing proxy with
  | nil => rfl
  | cons ip ips ih =>
      rw [run_forEach_cons, run_forEach_cons, run_onAcl]
      cases EStateM.run (call ip) proxy.acl with
      | error e tree => rfl
      | ok a tree => exact ih { proxy with acl := tree }

/-- The two methods on the black list: a loop of calls on the tree under the
lock. -/
theorem completes_aclLoop_iff {α : Type} (call : String → Eff RadixTree α)
    (ips : List String) :
    Completes (EStateM.run (withLock (forEach ips fun ip => onAcl (call ip))) proxy) ↔
      proxy.mu = .free ∧ Completes (EStateM.run (forEach ips call) proxy.acl) := by
  rw [completes_withLock_iff, run_forEach_onAcl, completes_embed]
  exact Iff.rfl

theorem run_aclLoop_ok {α : Type} {call : String → Eff RadixTree α} {ips : List String}
    (hrun : EStateM.run (withLock (forEach ips fun ip => onAcl (call ip))) proxy =
      .ok () proxy') :
    proxy.mu = .free ∧ ∃ tree, EStateM.run (forEach ips call) proxy.acl = .ok () tree ∧
      proxy' = { proxy with acl := tree } := by
  obtain ⟨h, proxy₁, hbody, rfl⟩ := run_withLock_ok hrun
  rw [run_forEach_onAcl] at hbody
  obtain ⟨tree, htree, rfl⟩ := embed_eq_ok hbody
  refine ⟨h, tree, htree, ?_⟩
  obtain ⟨mu⟩ := proxy
  obtain rfl : mu = .free := h
  rfl

theorem run_aclLoop {α : Type} {call : String → Eff RadixTree α} {ips : List String}
    {tree : RadixTree} (h : proxy.mu = .free)
    (hrun : EStateM.run (forEach ips call) proxy.acl = .ok () tree) :
    EStateM.run (withLock (forEach ips fun ip => onAcl (call ip))) proxy =
      .ok () { proxy with acl := tree } := by
  have hlocked : EStateM.run (forEach ips call) (locked proxy).acl = .ok () tree := hrun
  rw [run_withLock_free h, run_forEach_onAcl, hlocked]
  obtain ⟨mu⟩ := proxy
  obtain rfl : mu = .free := h
  rfl

theorem completes_addBlackList_iff (ips : List String) :
    Completes (EStateM.run (addBlackList ips) proxy) ↔
      proxy.mu = .free ∧
        Completes (EStateM.run (forEach ips fun ip => RadixTree.add ip ip) proxy.acl) :=
  completes_aclLoop_iff _ ips

theorem completes_removeBlackList_iff (ips : List String) :
    Completes (EStateM.run (removeBlackList ips) proxy) ↔
      proxy.mu = .free ∧
        Completes (EStateM.run (forEach ips RadixTree.deleteText) proxy.acl) :=
  completes_aclLoop_iff _ ips

end HttpReverseProxy
end Proxy
end VermouthGateway
