import VermouthGateway.Acl.Calls
import VermouthGateway.Proxy.RoutingTables
import VermouthGateway.Proxy.Serve

/-!
# The invariant of a proxy

`ProxyCall` lists the methods of a proxy that change its tables.  `Sound` is
what all of them keep when they return, and what requests keep however they
end: the lock is free, nothing is nil, `Paths` copies the router, the record
of the black list holds networks, and no recorded speed is zero.

* `ProxyCall.run_sound`: a method that returns.
* `sound_serveHTTP`: a request.
* `ProxyCall.run_frame`, `frame_serveHTTP`: neither touches the port and the channel
  of the proxy, and only `Start` and `Stop` write the flag `Available`.
* `sound_restore`: `Restore`, on a sound proxy or on its decoded fields.
-/

namespace VermouthGateway
namespace Proxy

open Go Balancing Acl
open HttpReverseProxy

/-- The methods that change the tables of a proxy. -/
inductive ProxyCall
  | routing (call : RoutingCall)
  | addBlackList (ips : List String)
  | removeBlackList (ips : List String)
  | setRateLimit (prefixPath apiPath limiterType : String) (init speed : Int)
  | start
  | stop

def ProxyCall.run : ProxyCall → Eff HttpReverseProxy Unit
  | .routing call => call.run
  | .addBlackList ips => HttpReverseProxy.addBlackList ips
  | .removeBlackList ips => HttpReverseProxy.removeBlackList ips
  | .setRateLimit prefixPath apiPath limiterType init speed =>
      HttpReverseProxy.setRateLimit prefixPath apiPath limiterType init speed
  | .start => HttpReverseProxy.start
  | .stop => HttpReverseProxy.stop

structure Sound (proxy : HttpReverseProxy) : Prop where
  free : proxy.mu = .free
  type : proxy.prefixerType = typeHashPrefixer
  copies : ∃ p, Copies proxy p
  limiters : proxy.rateLimiters.isSome
  root : proxy.acl.root.isSome
  record : RecordDenotes proxy.acl
  speeds : proxy.SpeedsNonzero

theorem sound_newHttpReverseProxy {args : HttpProxyArgs} {shutdown : Nat}
    {proxy : HttpReverseProxy} (h : newHttpReverseProxy args shutdown = .ok proxy) :
    Sound proxy := by
  have hmirrored := mirrored_newHttpReverseProxy h
  obtain ⟨p, hp⟩ := hmirrored.mirrors
  exact
    { free := hmirrored.free
      type := hmirrored.type
      copies := ⟨p, hp.toCopies⟩
      limiters := by rw [hmirrored.limiters]; rfl
      root := by
        rw [newHttpReverseProxy] at h
        split at h
        · cases h
        · cases h
          rfl
      record := by
        intro text htext
        rw [hmirrored.record] at htext
        exact absurd htext Finmap.notMem_empty
      speeds := by
        intro k infos hk
        rw [hmirrored.infos] at hk
        cases hk }

namespace Sound

variable {proxy proxy' : HttpReverseProxy} {p : HashPrefixer} {prefixPath : String}

theorem withPrefix (h : Sound proxy) (hp : proxy.prefixMapping = some p) (algo : String)
    (isStatic : Bool) (b : Balancer) :
    Sound (proxy.withPrefix p prefixPath algo isStatic b) := by
  obtain ⟨p', hcopies⟩ := h.copies
  obtain rfl : p' = p := Option.some.inj (hcopies.router.symm.trans hp)
  exact ⟨h.free, h.type, ⟨_, hcopies.withPrefix algo isStatic b⟩, h.limiters, h.root, h.record,
    h.speeds⟩

theorem withoutPrefix (h : Sound proxy) (hp : proxy.prefixMapping = some p) :
    Sound (proxy.withoutPrefix p prefixPath) := by
  obtain ⟨p', hcopies⟩ := h.copies
  obtain rfl : p' = p := Option.some.inj (hcopies.router.symm.trans hp)
  refine ⟨h.free, h.type, ⟨_, hcopies.withoutPrefix⟩, ?_, h.root, h.record, ?_⟩
  · have hlimiters := h.limiters
    rw [HttpReverseProxy.withoutPrefix]
    dsimp only
    rw [Option.isSome_map]
    exact hlimiters
  · intro k infos hk
    exact h.speeds k infos (GoMap.lookup_erase_eq_some_iff.mp hk).2

theorem withBalancer (h : Sound proxy) (hp : proxy.prefixMapping = some p) {b : Balancer}
    (hb : p.getBalancer prefixPath = some b) (b' : Balancer) :
    Sound (proxy.withBalancer p prefixPath b') := by
  obtain ⟨p', hcopies⟩ := h.copies
  obtain rfl : p' = p := Option.some.inj (hcopies.router.symm.trans hp)
  exact ⟨h.free, h.type, ⟨_, hcopies.withBalancer b' hb⟩, h.limiters, h.root, h.record,
    h.speeds⟩

theorem setStatic (h : Sound proxy) (isStatic : Bool) :
    Sound { proxy with staticMapping := proxy.staticMapping.insert prefixPath isStatic } := by
  obtain ⟨p, hcopies⟩ := h.copies
  exact ⟨h.free, h.type, ⟨p, hcopies.setStatic isStatic⟩, h.limiters, h.root, h.record,
    h.speeds⟩

theorem setAcl (h : Sound proxy) {tree : RadixTree} (hroot : tree.root.isSome)
    (hrecord : RecordDenotes tree) : Sound { proxy with acl := tree } := by
  obtain ⟨p, hcopies⟩ := h.copies
  exact ⟨h.free, h.type, ⟨p, hcopies.router, hcopies.paths, hcopies.static⟩, h.limiters, hroot,
    hrecord, h.speeds⟩

theorem setAvailable (h : Sound proxy) (available : Bool) :
    Sound { proxy with available := available } := by
  obtain ⟨p, hcopies⟩ := h.copies
  exact ⟨h.free, h.type, ⟨p, hcopies.router, hcopies.paths, hcopies.static⟩, h.limiters, h.root,
    h.record, h.speeds⟩

/-- Limiters with recorded infos of positive speeds. -/
theorem setLimiters (h : Sound proxy) {limiters : Option (GoMap String QpsRateLimiter)}
    {infos : GoMap String (List LimiterInfo)} (hlimiters : limiters.isSome)
    (hspeeds : ∀ k infosOf, infos.lookup k = some infosOf →
      ∀ info ∈ infosOf, info.type = "qps" → info.speed ≠ 0) :
    Sound { proxy with rateLimiters := limiters, rateLimiterType := infos } := by
  obtain ⟨p, hcopies⟩ := h.copies
  exact ⟨h.free, h.type, ⟨p, hcopies.router, hcopies.paths, hcopies.static⟩, hlimiters, h.root,
    h.record, hspeeds⟩

theorem withLimiter (h : Sound proxy) (limiters : GoMap String QpsRateLimiter)
    {info : LimiterInfo} (hspeed : info.speed ≠ 0) :
    Sound (proxy.withLimiter limiters prefixPath info) := by
  refine h.setLimiters rfl ?_
  intro k infosOf hk v hv hqps
  rw [GoMap.lookup_insert_eq] at hk
  split at hk
  · cases hk
    rcases List.mem_append.mp hv with hv | hv
    · cases hold : proxy.rateLimiterType.lookup prefixPath with
      | none =>
          rw [GoMap.get, hold] at hv
          cases hv
      | some infos =>
          rw [GoMap.get_of_lookup hold] at hv
          exact h.speeds prefixPath infos hold v hv hqps
    · rw [List.mem_singleton.mp hv]
      exact hspeed
  · exact h.speeds k infosOf hk v hv hqps

/-- An edited list holds old infos and infos of the new speed. -/
theorem mem_setInfo {apiPath : String} {init speed : Int} {infos : List LimiterInfo}
    {info : LimiterInfo} (hinfo : info ∈ setInfo apiPath init speed infos) :
    info ∈ infos ∨ info.speed = speed := by
  induction infos with
  | nil => cases hinfo
  | cons head infos ih =>
      rw [setInfo] at hinfo
      split at hinfo
      · rcases List.mem_cons.mp hinfo with rfl | hinfo
        · exact Or.inr rfl
        · exact Or.inl (List.mem_cons_of_mem head hinfo)
      · rcases List.mem_cons.mp hinfo with rfl | hinfo
        · exact Or.inl List.mem_cons_self
        · exact (ih hinfo).imp (List.mem_cons_of_mem head) id

theorem withRate (h : Sound proxy) (limiters : GoMap String QpsRateLimiter)
    (limiter : QpsRateLimiter) (apiPath : String) (init : Int) {speed : Int}
    (hspeed : speed ≠ 0) :
    Sound (proxy.withRate limiters limiter prefixPath apiPath init speed) := by
  refine h.setLimiters rfl ?_
  intro k infosOf hk v hv hqps
  rw [setInfos] at hk
  cases hold : proxy.rateLimiterType.lookup prefixPath with
  | none =>
      rw [hold] at hk
      exact h.speeds k infosOf hk v hv hqps
  | some infos =>
      rw [hold] at hk
      dsimp only at hk
      rw [GoMap.lookup_insert_eq] at hk
      split at hk
      · cases hk
        rcases mem_setInfo hv with hv | hv
        · exact h.speeds prefixPath infos hold v hv hqps
        · rw [hv]
          exact hspeed
      · exact h.speeds k infosOf hk v hv hqps

theorem sameRoutes (h : Sound proxy) (hsame : SameRoutes proxy proxy') : Sound proxy' := by
  obtain ⟨p, hcopies⟩ := h.copies
  obtain ⟨pm, rfl, hroutes⟩ := hsame
  rw [hcopies.router] at hroutes
  obtain ⟨p', rfl, heq⟩ := Option.map_eq_some_iff.mp hroutes
  refine ⟨h.free, h.type, ⟨p', rfl, ?_, ?_⟩, h.limiters, h.root, h.record, h.speeds⟩
  · intro q
    rw [heq]
    exact hcopies.paths q
  · intro q hq
    rw [heq] at hq
    exact hcopies.static q hq

end Sound

/-! ## The methods -/

theorem RoutingCall.run_sound {proxy proxy' : HttpReverseProxy} (call : RoutingCall)
    (h : Sound proxy) (hrun : EStateM.run call.run proxy = .ok () proxy') : Sound proxy' := by
  cases call with
  | addPrefix prefixPath algo hosts isStatic =>
      obtain ⟨-, p, hp, ⟨-, rfl⟩ | ⟨-, b, -, rfl⟩⟩ := run_addPrefix_ok hrun
      · exact h
      · exact h.withPrefix hp algo isStatic b
  | removePrefix prefixPath =>
      obtain ⟨-, p, hp, rfl⟩ := run_removePrefix_ok hrun
      exact h.withoutPrefix hp
  | addHost prefixPath host =>
      obtain ⟨-, p, b, b', hp, hb, -, rfl⟩ := run_updateHosts_ok hrun
      exact h.withBalancer hp hb b'
  | removeHost prefixPath host =>
      obtain ⟨-, p, b, b', hp, hb, -, rfl⟩ := run_updateHosts_ok hrun
      exact h.withBalancer hp hb b'
  | changeStatic prefixPath =>
      rw [RoutingCall.run, run_changeStatic h.free] at hrun
      cases hrun
      exact h.setStatic _
  | changeLb prefixPath lb =>
      obtain ⟨-, p, b, b', hp, hb, -, rfl⟩ := run_changeLb_ok hrun
      exact (h.withoutPrefix hp).withPrefix rfl lb _ b'

theorem ProxyCall.run_sound {proxy proxy' : HttpReverseProxy} (call : ProxyCall)
    (h : Sound proxy) (hrun : EStateM.run call.run proxy = .ok () proxy') : Sound proxy' := by
  cases call with
  | routing call => exact call.run_sound h hrun
  | addBlackList ips =>
      obtain ⟨-, tree, htree, rfl⟩ := run_aclLoop_ok hrun
      obtain ⟨hroot, hrecord⟩ := run_addAll_ok h.record htree
      exact h.setAcl (by rw [hroot]; exact h.root) hrecord
  | removeBlackList ips =>
      obtain ⟨-, tree, htree, rfl⟩ := run_aclLoop_ok hrun
      obtain ⟨hroot, hrecord⟩ := run_deleteAll_ok h.record htree
      exact h.setAcl (by rw [hroot]; exact h.root) hrecord
  | setRateLimit prefixPath apiPath limiterType init speed =>
      obtain ⟨-, hspeed, limiters, limiter, -, -, rfl⟩ := run_setRateLimit_ok hrun
      exact h.withRate limiters limiter apiPath init hspeed
  | start =>
      rw [ProxyCall.run, run_start h.free] at hrun
      cases hrun
      exact h.setAvailable true
  | stop =>
      rw [ProxyCall.run, run_stop h.free] at hrun
      cases hrun
      exact h.setAvailable false

/-- A request, however it ends. -/
theorem sound_serveHTTP {proxy : HttpReverseProxy} (h : Sound proxy) (peerAvailable : Bool)
    (allow : QpsRateLimiter → Bool) (r : Utils.Request) :
    Sound (memory (EStateM.run (serveHTTP peerAvailable allow r) proxy)) := by
  obtain ⟨proxy₁, hsame, hmem | ⟨prefixPath, apiPath, -, hmem⟩⟩ :=
    memory_serveHTTP peerAvailable allow r proxy
  · rw [hmem]
    exact h.sameRoutes hsame
  · have h₁ := h.sameRoutes hsame
    obtain ⟨limiters, hl⟩ := Option.isSome_iff_exists.mp h₁.limiters
    rw [hmem, run_createRateLimiter h₁.free hl (by decide)]
    exact h₁.withLimiter limiters (show inf ≠ 0 by decide)

/-! ## The port and the channel -/

/-- A proxy on the same port with the same shutdown channel. -/
structure SameServer (proxy proxy' : HttpReverseProxy) : Prop where
  port : proxy'.port = proxy.port
  shutdown : proxy'.shutdown = proxy.shutdown

/-- What a call sets the flag `Available` to. -/
def ProxyCall.switch : ProxyCall → Option Bool
  | .start => some true
  | .stop => some false
  | _ => none

theorem RoutingCall.run_frame {proxy proxy' : HttpReverseProxy} (call : RoutingCall)
    (hrun : EStateM.run call.run proxy = .ok () proxy') :
    SameServer proxy proxy' ∧ proxy'.available = proxy.available := by
  cases call with
  | addPrefix prefixPath algo hosts isStatic =>
      obtain ⟨-, p, -, ⟨-, rfl⟩ | ⟨-, b, -, rfl⟩⟩ := run_addPrefix_ok hrun <;>
        exact ⟨⟨rfl, rfl⟩, rfl⟩
  | removePrefix prefixPath =>
      obtain ⟨-, p, -, rfl⟩ := run_removePrefix_ok hrun
      exact ⟨⟨rfl, rfl⟩, rfl⟩
  | addHost prefixPath host =>
      obtain ⟨-, p, b, b', -, -, -, rfl⟩ := run_updateHosts_ok hrun
      exact ⟨⟨rfl, rfl⟩, rfl⟩
  | removeHost prefixPath host =>
      obtain ⟨-, p, b, b', -, -, -, rfl⟩ := run_updateHosts_ok hrun
      exact ⟨⟨rfl, rfl⟩, rfl⟩
  | changeStatic prefixPath =>
      obtain ⟨hfree, -⟩ := run_withLock_ok hrun
      rw [RoutingCall.run, run_changeStatic hfree] at hrun
      cases hrun
      exact ⟨⟨rfl, rfl⟩, rfl⟩
  | changeLb prefixPath lb =>
      obtain ⟨-, p, b, b', -, -, -, rfl⟩ := run_changeLb_ok hrun
      exact ⟨⟨rfl, rfl⟩, rfl⟩

/-- No call moves a proxy, and only `Start` and `Stop` write the flag. -/
theorem ProxyCall.run_frame {proxy proxy' : HttpReverseProxy} (call : ProxyCall)
    (hrun : EStateM.run call.run proxy = .ok () proxy') :
    SameServer proxy proxy' ∧ proxy'.available = call.switch.getD proxy.available := by
  cases call with
  | routing call => exact call.run_frame hrun
  | addBlackList ips =>
      obtain ⟨-, tree, -, rfl⟩ := run_aclLoop_ok hrun
      exact ⟨⟨rfl, rfl⟩, rfl⟩
  | removeBlackList ips =>
      obtain ⟨-, tree, -, rfl⟩ := run_aclLoop_ok hrun
      exact ⟨⟨rfl, rfl⟩, rfl⟩
  | setRateLimit prefixPath apiPath limiterType init speed =>
      obtain ⟨-, -, limiters, limiter, -, -, rfl⟩ := run_setRateLimit_ok hrun
      exact ⟨⟨rfl, rfl⟩, rfl⟩
  | start =>
      obtain ⟨hfree, -⟩ := run_withLock_ok hrun
      rw [ProxyCall.run, run_start hfree] at hrun
      cases hrun
      exact ⟨⟨rfl, rfl⟩, rfl⟩
  | stop =>
      obtain ⟨hfree, -⟩ := run_withLock_ok hrun
      rw [ProxyCall.run, run_stop hfree] at hrun
      cases hrun
      exact ⟨⟨rfl, rfl⟩, rfl⟩

theorem ProxyCall.run_sameServer {proxy proxy' : HttpReverseProxy} (call : ProxyCall)
    (hrun : EStateM.run call.run proxy = .ok () proxy') : SameServer proxy proxy' :=
  (call.run_frame hrun).1

/-- The default limiter, in whatever state the proxy is. -/
theorem frame_createRateLimiter (proxy : HttpReverseProxy) (prefixPath apiPath : String) :
    SameServer proxy
        (memory (EStateM.run (createRateLimiter prefixPath apiPath "qps" inf inf) proxy)) ∧
      (memory (EStateM.run (createRateLimiter prefixPath apiPath "qps" inf inf)
        proxy)).available = proxy.available := by
  by_cases hfree : proxy.mu = .free
  · cases hl : proxy.rateLimiters with
    | some limiters =>
        rw [run_createRateLimiter hfree hl (by decide)]
        exact ⟨⟨rfl, rfl⟩, rfl⟩
    | none =>
        obtain ⟨mu⟩ := proxy
        obtain rfl : mu = .free := hfree
        obtain rfl : _ = none := hl
        exact ⟨⟨rfl, rfl⟩, rfl⟩
  · rw [createRateLimiter, run_withLock_held hfree]
    exact ⟨⟨rfl, rfl⟩, rfl⟩

theorem frame_serveHTTP (proxy : HttpReverseProxy) (peerAvailable : Bool)
    (allow : QpsRateLimiter → Bool) (r : Utils.Request) :
    SameServer proxy (memory (EStateM.run (serveHTTP peerAvailable allow r) proxy)) ∧
      (memory (EStateM.run (serveHTTP peerAvailable allow r) proxy)).available =
        proxy.available := by
  obtain ⟨proxy₁, ⟨pm, rfl, -⟩, hmem | ⟨prefixPath, apiPath, -, hmem⟩⟩ :=
    memory_serveHTTP peerAvailable allow r proxy
  · rw [hmem]
    exact ⟨⟨rfl, rfl⟩, rfl⟩
  · obtain ⟨hcreate, havailable⟩ := frame_createRateLimiter
      { proxy with prefixMapping := pm } prefixPath apiPath
    rw [hmem]
    exact ⟨⟨hcreate.port, hcreate.shutdown⟩, havailable⟩

/-! ## Restoring -/

theorem rebuildAcl_ok {ips : List String} {tree : RadixTree} (h : rebuildAcl ips = .ok tree) :
    EStateM.run (addAll ips) newRadixTree = .ok () tree := by
  rw [rebuildAcl] at h
  rw [addAll]
  cases hrun : EStateM.run (forEach ips fun ip => RadixTree.add ip ip) newRadixTree with
  | error e t =>
      rw [hrun] at h
      cases h
  | ok u t =>
      rw [hrun] at h
      cases h
      rfl

theorem rebuildAcl_of_run {ips : List String} {tree : RadixTree}
    (h : EStateM.run (addAll ips) newRadixTree = .ok () tree) : rebuildAcl ips = .ok tree := by
  rw [addAll] at h
  rw [rebuildAcl, h]

/-- A rebuilt tree has a root and records networks. -/
theorem rebuilt {ips : List String} {tree : RadixTree} (h : rebuildAcl ips = .ok tree) :
    tree.root.isSome ∧ RecordDenotes tree := by
  obtain ⟨hroot, hrecord⟩ := run_addAll_ok
    (fun text htext => absurd htext Finmap.notMem_empty) (rebuildAcl_ok h)
  exact ⟨by rw [hroot]; rfl, hrecord⟩

/-- A restored proxy is sound, whatever its fields were. -/
theorem sound_restore {proxy proxy' : HttpReverseProxy} {order : RestoreOrder}
    (hfree : proxy.mu = .free)
    (hrun : EStateM.run (HttpReverseProxy.restore order) proxy = .ok true proxy') :
    Sound proxy' := by
  rcases run_restore_ok hrun with ⟨-, hfalse, -⟩ | ⟨htype, -, -, hspeeds, tree, hacl, hrestored⟩
  · cases hfalse
  obtain ⟨hroot, hrecord⟩ := rebuilt hacl
  obtain ⟨router, hrouter, hroutes⟩ := hrestored.routes
  have hstatic := hrestored.static
  have hinfos := hrestored.recorded
  obtain ⟨static, router', limiters, recorded, rfl⟩ := hrestored.frame
  obtain rfl : router' = router := Option.some.inj hrouter
  refine ⟨hfree, htype, ⟨router', rfl, ?_, ?_⟩, rfl, hroot, hrecord, ?_⟩
  · intro q
    rw [hroutes]
    show proxy.paths.lookup q = _
    cases proxy.paths.lookup q <;> rfl
  · intro q hq
    -- every routed prefix was in `Paths`, and the loop wrote its flag
    obtain ⟨v, hv⟩ := Finmap.mem_iff.mp hq
    rw [hroutes] at hv
    obtain ⟨hosts, hhosts, -⟩ := Option.map_eq_some_iff.mp hv
    have hmem : q ∈ proxy.paths := Finmap.mem_iff.mpr ⟨hosts, hhosts⟩
    have hflag := hstatic q
    rw [if_pos hmem] at hflag
    exact Finmap.mem_iff.mpr ⟨_, hflag⟩
  · intro k infos hk info hinfo hqps
    -- a replayed info is one of the recorded ones
    have hlookup := hinfos k
    rw [hk] at hlookup
    obtain ⟨old, hold, hreplayed⟩ := Option.map_eq_some_iff.mp hlookup.symm
    rw [← hreplayed, replayed, List.mem_append, List.mem_filter] at hinfo
    exact hspeeds k old hold info (hinfo.elim id And.left) hqps

/-- A restore keeps the flag. -/
theorem available_restore {proxy proxy' : HttpReverseProxy} {order : RestoreOrder}
    {answer : Bool} (hrun : EStateM.run (HttpReverseProxy.restore order) proxy =
      .ok answer proxy') : proxy'.available = proxy.available := by
  rcases run_restore_ok hrun with ⟨-, -, rfl⟩ | ⟨-, -, -, -, tree, -, hrestored⟩
  · rfl
  · obtain ⟨static, router, limiters, recorded, rfl⟩ := hrestored.frame
    rfl

end Proxy
end VermouthGateway
