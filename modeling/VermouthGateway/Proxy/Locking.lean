import VermouthGateway.Balancing.Locks
import VermouthGateway.Proxy.Returns

/-!
# The lock of a proxy

The methods of a proxy that take its lock, each started with the lock free and
run alone.  A method ends with the lock free unless it waits for a lock while it
holds this one.

* `LockedCall.Safe`: what a method needs for that.
* `ends_with_lock_free`: it is enough, and but for the removal of black-listed networks it
  is exact.
* `limiter_deadlock`: `SetRateLimit` on a path without a limiter waits for
  itself.
-/

namespace VermouthGateway
namespace Proxy

open Go Balancing Acl

/-! ## The black list -/

/-- Going up from a node ends: pruning climbs no further. -/
theorem ended_prune {t : RadixTree} {fuel n : Nat} {node : Ptr} (hclimb : Climbs t n node)
    (hfuel : n < fuel) : Ended (EStateM.run (RadixTree.prune fuel node) t) := by
  induction fuel generalizing t n node with
  | zero => omega
  | succ fuel ih =>
      rw [Shape.run_prune_succ]
      cases n with
      | zero =>
          rw [Climbs] at hclimb
          rw [hclimb]
          trivial
      | succ n =>
          obtain ⟨up, hup, hclimb⟩ := hclimb
          rw [hup]
          dsimp only
          split
          · trivial
          · split
            · trivial
            · split
              · trivial
              · exact ih ((climbs_detach t node up n up).mpr hclimb) (by omega)

/-- Going up from the node of a network, if that is a leaf, ends. -/
def Climbable (t : RadixTree) (ipNet : String) : Prop :=
  ∀ ip n node, network ipNet = .ok (some (ip, n)) →
    t.walk ip (RadixTree.netMask n) 32 maxIpv4Bit t.root = some node →
    t.child node true = none → t.child node false = none →
    ∃ steps < 33 + 2 * t.next, Climbs t steps node

/-- The same for a list of texts, each in the tree the deletions before it
leave. -/
def ClimbableAll : RadixTree → List String → Prop
  | _, [] => True
  | t, ip :: ips => Climbable t ip ∧
      ClimbableAll (memory (EStateM.run (RadixTree.deleteText ip) t)) ips

theorem ended_deleteText {t : RadixTree} {ipNet : String} (hclimb : Climbable t ipNet) :
    Ended (EStateM.run (RadixTree.deleteText ipNet) t) := by
  cases hnet : network ipNet with
  | error e =>
      rw [run_deleteText_fault hnet, Utils.inetToi_error (network_fault hnet)]
      trivial
  | ok net =>
      cases net with
      | none =>
          obtain ⟨e, hrefused⟩ := run_deleteText_refused (t := t) hnet
          rw [hrefused]
          trivial
      | some net =>
          have hdelete : Ended (EStateM.run
              (RadixTree.delete net.1 (RadixTree.netMask net.2)) t) := by
            rcases run_delete_cases net.1 (RadixTree.netMask net.2) t with
              ⟨ret, t', hrun⟩ | ⟨node, hwalk, hright, hleft, hrun⟩
            · rw [hrun]
              trivial
            · -- only a leaf is pruned, and from it the parents end within the fuel
              obtain ⟨steps, hsteps, hclimbs⟩ := hclimb net.1 net.2 node hnet hwalk hright hleft
              have hprune := ended_prune hclimbs hsteps
              rw [hrun]
              cases hpruned : EStateM.run (RadixTree.prune (33 + 2 * t.next) node) t with
              | ok u t' => trivial
              | error e t' =>
                  rw [hpruned] at hprune
                  exact hprune.error t'
          rw [run_deleteText_network hnet]
          cases hrun : EStateM.run (RadixTree.delete net.1 (RadixTree.netMask net.2)) t with
          | ok ret t' => cases ret <;> trivial
          | error e t' =>
              rw [hrun] at hdelete
              exact hdelete.error t'

theorem ended_deleteAll {t : RadixTree} {ips : List String} (h : ClimbableAll t ips) :
    Ended (EStateM.run (deleteAll ips) t) := by
  rw [deleteAll]
  induction ips generalizing t with
  | nil => trivial
  | cons ip ips ih =>
      obtain ⟨hclimb, hrest⟩ := h
      have hended := ended_deleteText hclimb
      rw [run_forEach_cons]
      cases hrun : EStateM.run (RadixTree.deleteText ip) t with
      | ok answer t₁ =>
          rw [hrun] at hrest
          exact ih hrest
      | error e t₁ =>
          rw [hrun] at hended
          exact hended.error t₁

theorem ended_add (ipNet value : String) (t : RadixTree) :
    Ended (EStateM.run (RadixTree.add ipNet value) t) := by
  cases hnet : network ipNet with
  | error e =>
      rw [run_add_fault hnet, Utils.inetToi_error (network_fault hnet)]
      trivial
  | ok net =>
      cases net with
      | none =>
          obtain ⟨e, hrefused⟩ := run_add_refused hnet value t
          rw [hrefused]
          trivial
      | some net =>
          rw [run_add_network hnet]
          cases t.root <;> trivial

theorem ended_addAll (ips : List String) (t : RadixTree) :
    Ended (EStateM.run (addAll ips) t) :=
  ended_forEach ips (fun ip _ t => ended_add ip ip t) t

/-! ## The methods -/

/-- The methods that take the lock of the proxy. -/
inductive LockedCall
  | addPrefix (prefixPath algo : String) (hosts : List String) (isStatic : Bool)
  | removePrefix (prefixPath : String)
  | getHosts (prefixPath : String)
  | addHost (prefixPath host : String)
  | removeHost (prefixPath host : String)
  | loadBalance (prefixPath balanceUrl : String)
  | addBlackList (ips : List String)
  | removeBlackList (ips : List String)
  | setRateLimit (prefixPath apiPath limiterType : String) (init speed : Int)
  | createRateLimiter (prefixPath apiPath limiterType : String) (init speed : Int)
  | checkPrefixExists (prefixPath : String)
  | changeStatic (prefixPath : String)
  | changeLb (prefixPath lb : String)
  | start
  | stop
  | restore (order : RestoreOrder)

namespace LockedCall

open HttpReverseProxy

/-- The method, whatever it returns dropped. -/
def run : LockedCall → Eff HttpReverseProxy Unit
  | .addPrefix prefixPath algo hosts isStatic =>
      HttpReverseProxy.addPrefix prefixPath algo hosts isStatic
  | .removePrefix prefixPath => HttpReverseProxy.removePrefix prefixPath
  | .getHosts prefixPath => lockedGetHosts prefixPath >>= fun _ => pure ()
  | .addHost prefixPath host => HttpReverseProxy.addHost prefixPath host
  | .removeHost prefixPath host => HttpReverseProxy.removeHost prefixPath host
  | .loadBalance prefixPath balanceUrl =>
      HttpReverseProxy.loadBalance prefixPath balanceUrl >>= fun _ => pure ()
  | .addBlackList ips => HttpReverseProxy.addBlackList ips
  | .removeBlackList ips => HttpReverseProxy.removeBlackList ips
  | .setRateLimit prefixPath apiPath limiterType init speed =>
      HttpReverseProxy.setRateLimit prefixPath apiPath limiterType init speed
  | .createRateLimiter prefixPath apiPath limiterType init speed =>
      HttpReverseProxy.createRateLimiter prefixPath apiPath limiterType init speed >>=
        fun _ => pure ()
  | .checkPrefixExists prefixPath =>
      HttpReverseProxy.checkPrefixExists prefixPath >>= fun _ => pure ()
  | .changeStatic prefixPath => HttpReverseProxy.changeStatic prefixPath
  | .changeLb prefixPath lb => HttpReverseProxy.changeLb prefixPath lb
  | .start => HttpReverseProxy.start
  | .stop => HttpReverseProxy.stop
  | .restore order => HttpReverseProxy.restore order >>= fun _ => pure ()

/-- What a method needs to end with the lock free. -/
def Safe (proxy : HttpReverseProxy) : LockedCall → Prop
  | .addHost prefixPath _ => ∀ b, proxy.balancerOf prefixPath = some b → b.mu = .free
  | .removeHost prefixPath _ => ∀ b, proxy.balancerOf prefixPath = some b → b.mu = .free
  | .loadBalance prefixPath _ =>
      ∀ b, proxy.balancerOf prefixPath = some b → b.mu.writer = false
  | .setRateLimit prefixPath apiPath _ _ _ =>
      ∃ limiters limiter, proxy.rateLimiters = some limiters ∧
        limiters.lookup (compeleteUrl prefixPath apiPath) = some limiter
  | .removeBlackList ips => ClimbableAll proxy.acl ips
  | _ => True

end LockedCall

/-- Dropping the result does not make a computation end. -/
theorem ended_of_discard {α : Type} {body : Eff HttpReverseProxy α} {proxy : HttpReverseProxy}
    (h : Ended (EStateM.run (body >>= fun _ => (pure () : Eff HttpReverseProxy Unit)) proxy)) :
    Ended (EStateM.run body proxy) := by
  by_contra hbody
  exact not_ended_bind hbody h

section Methods

open HttpReverseProxy

variable {proxy : HttpReverseProxy} {prefixPath : String}

theorem balanced_onPrefixer {α : Type} {body : Eff HashPrefixer α}
    (hbody : ∀ p, proxy.prefixMapping = some p → Ended (EStateM.run body p)) :
    Balanced (onPrefixer body) proxy :=
  .focus (fun _ => rfl) hbody

theorem ended_withBalancer {α : Type} {body : Eff Balancer α} {p : HashPrefixer}
    (hbody : ∀ b, p.getBalancer prefixPath = some b → Ended (EStateM.run body b)) :
    Ended (EStateM.run (HashPrefixer.withBalancer prefixPath body) p) := by
  rw [HashPrefixer.run_withBalancer]
  cases hb : p.getBalancer prefixPath with
  | none => trivial
  | some b => exact (ended_embed _ _).mpr (hbody b hb)

theorem balanced_getBalancer (proxy : HttpReverseProxy) :
    Balanced (getBalancer prefixPath) proxy :=
  balanced_onPrefixer fun _ _ => ended_withBalancer fun _ _ => trivial

theorem balanced_addPrefix (h : proxy.mu = .free) (algo : String) (hosts : List String)
    (isStatic : Bool) : Balanced (addPrefix prefixPath algo hosts isStatic) proxy := by
  refine .withLock h ?_
  refine .bind (balanced_onPrefixer fun _ _ => trivial) fun p _ _ _ => ?_
  refine .ite (fun _ => .pure _ _) fun _ => ?_
  refine .bind (.modify rfl) fun _ _ _ _ => ?_
  refine .bind (balanced_onPrefixer fun _ _ => trivial) fun _ _ _ _ => ?_
  refine .bind (.modify rfl) fun _ _ _ _ => ?_
  refine .bind (balanced_getBalancer _) fun b _ _ _ => ?_
  exact .modify rfl

theorem balanced_removePrefix (h : proxy.mu = .free) :
    Balanced (removePrefix prefixPath) proxy := by
  refine .withLock h ?_
  refine .bind (.modify rfl) fun _ _ _ _ => ?_
  exact balanced_onPrefixer fun _ _ => trivial

theorem balanced_updateHosts (h : proxy.mu = .free) {body : Eff Balancer Unit}
    (hbody : ∀ b, proxy.balancerOf prefixPath = some b → Ended (EStateM.run body b)) :
    Balanced (updateHosts prefixPath body) proxy := by
  refine .withLock h ?_
  refine .bind (balanced_onPrefixer fun p hp => ended_withBalancer fun b hb => ?_)
    fun _ _ _ _ => ?_
  · have hrouter : proxy.prefixMapping = some p := hp
    exact hbody b ((balancerOf_eq hrouter prefixPath).trans hb)
  · refine .bind (balanced_getBalancer _) fun b _ _ _ => ?_
    exact .modify rfl

/-- A change that waits in the balancer keeps the lock of the proxy. -/
theorem ended_of_updateHosts (h : proxy.mu = .free) {body : Eff Balancer Unit}
    (hended : Ended (EStateM.run (updateHosts prefixPath body) proxy)) {b : Balancer}
    (hb : proxy.balancerOf prefixPath = some b) : Ended (EStateM.run body b) := by
  obtain ⟨p, hp, hb⟩ := Option.bind_eq_some_iff.mp hb
  rw [run_updateHosts h hp, hb] at hended
  dsimp only at hended
  cases hrun : EStateM.run body b with
  | ok a b' => trivial
  | error e b' =>
      rw [hrun] at hended
      dsimp only at hended
      rw [ended_released] at hended
      exact hended.error b'

theorem balanced_createRateLimiter (h : proxy.mu = .free) (apiPath limiterType : String)
    (init speed : Int) :
    Balanced (createRateLimiter prefixPath apiPath limiterType init speed) proxy := by
  refine .withLock h ?_
  cases buildRateLimiter limiterType with
  | error e => exact .pure _ _
  | ok limiter =>
      refine .bind (.get _) fun proxy₁ _ hget _ => ?_
      cases hget
      split
      · exact .panic _ _
      · refine .bind (.set rfl) fun _ _ _ _ => ?_
        refine .bind (.ofPure (fun e he => ?_) _) fun limiter _ _ _ => ?_
        · rw [QpsRateLimiter.setRate] at he
          split at he
          · cases he
            exact ⟨_, rfl⟩
          · cases he
        · exact .bind (.modify rfl) fun _ _ _ _ => .pure _ _

theorem balanced_setRateLimit (h : proxy.mu = .free) {apiPath limiterType : String}
    {init speed : Int} {limiters : GoMap String QpsRateLimiter} {limiter : QpsRateLimiter}
    (hl : proxy.rateLimiters = some limiters)
    (hlimiter : limiters.lookup (compeleteUrl prefixPath apiPath) = some limiter) :
    Balanced (setRateLimit prefixPath apiPath limiterType init speed) proxy := by
  have hrun : EStateM.run (setRateLimit prefixPath apiPath limiterType init speed) proxy = _ :=
    run_setRateLimit h hl hlimiter
  by_cases hspeed : speed = 0
  · rw [if_pos hspeed] at hrun
    exact .of_run_panic hrun rfl
  · rw [if_neg hspeed] at hrun
    exact .of_run_ok hrun rfl

/-- `SetRateLimit` on a path without a limiter asks for the lock it holds. -/
theorem limiter_of_ended {apiPath limiterType : String} {init speed : Int}
    (hended : Ended (EStateM.run (setRateLimit prefixPath apiPath limiterType init speed) proxy)) :
    ∃ limiters limiter, proxy.rateLimiters = some limiters ∧
      limiters.lookup (compeleteUrl prefixPath apiPath) = some limiter := by
  by_contra hnone
  have hlookup : (locked proxy).rateLimiters.bind
      (fun limiters => limiters.lookup (compeleteUrl prefixPath apiPath)) = none := by
    rw [Option.eq_none_iff_forall_not_mem]
    intro limiter hmem
    obtain ⟨limiters, hl, hlimiter⟩ := Option.bind_eq_some_iff.mp hmem
    exact hnone ⟨limiters, limiter, hl, hlimiter⟩
  refine not_ended_withLock ?_ hended
  rw [EStateM.run_bind, EStateM.run_get]
  dsimp only
  rw [hlookup]
  dsimp only
  refine not_ended_bind ?_
  rw [run_createRateLimiter_locked]
  exact not_ended_blocked _

theorem balanced_changeLb (h : proxy.mu = .free) (lb : String) :
    Balanced (changeLb prefixPath lb) proxy := by
  refine .bind (balanced_getBalancer proxy) fun b proxy₁ _ hmu₁ => ?_
  refine .bind (.get proxy₁) fun _ proxy₂ hget _ => ?_
  cases hget
  refine .bind (balanced_removePrefix (hmu₁.trans h)) fun _ proxy₃ _ hmu₃ => ?_
  exact balanced_addPrefix (hmu₃.trans (hmu₁.trans h)) lb b.hosts _

theorem rebuildAcl_error {ips : List String} {e : Halt} (h : rebuildAcl ips = .error e) :
    ∃ fault, e = .panic fault := by
  have hended := ended_addAll ips newRadixTree
  rw [rebuildAcl] at h
  split at h
  · cases h
  · next hrun =>
      cases h
      rw [addAll, hrun] at hended
      exact ended_error_iff.mp hended

/-- `Restore` takes and gives back the lock round by round. -/
theorem balanced_restore (h : proxy.mu = .free) (order : RestoreOrder) :
    Balanced (restore order) proxy := by
  refine .bind (.get proxy) fun _ _ hget _ => ?_
  cases hget
  split
  · exact .pure _ _
  · refine .bind (.set rfl) fun _ proxy₁ _ hmu₁ => ?_
    refine .bind (.forEach fun k _ proxy₂ hmu₂ => ?_) fun _ proxy₂ _ hmu₂ => ?_
    · refine .bind (.get proxy₂) fun _ _ hget _ => ?_
      cases hget
      exact balanced_addPrefix (hmu₂.trans (hmu₁.trans h)) _ _ _
    · refine .bind (.get proxy₂) fun _ _ hget _ => ?_
      cases hget
      refine .bind (.ofPure (fun e he => rebuildAcl_error he) _) fun tree proxy₃ _ hmu₃ => ?_
      refine .bind (.modify rfl) fun _ proxy₄ _ hmu₄ => ?_
      refine .bind (.get proxy₄) fun _ _ hget _ => ?_
      cases hget
      refine .bind (.forEach fun k _ proxy₅ hmu₅ => ?_) fun _ _ _ _ => .pure _ _
      refine .forEach fun v _ proxy₆ hmu₆ => ?_
      refine balanced_createRateLimiter ?_ v.url v.type v.init v.speed
      calc proxy₆.mu = proxy₅.mu := hmu₆
        _ = proxy₄.mu := hmu₅
        _ = proxy₃.mu := hmu₄
        _ = proxy₂.mu := hmu₃
        _ = proxy₁.mu := hmu₂
        _ = proxy.mu := hmu₁
        _ = .free := h

theorem balanced_lockedGetHosts (h : proxy.mu = .free) :
    Balanced (lockedGetHosts prefixPath) proxy :=
  .withRLock (congrArg RWMutex.writer h) (.bind (.get _) fun _ _ _ _ => .pure _ _)

theorem balanced_loadBalance (h : proxy.mu = .free) (balanceUrl : String)
    (hwriter : ∀ b, proxy.balancerOf prefixPath = some b → b.mu.writer = false) :
    Balanced (loadBalance prefixPath balanceUrl) proxy := by
  refine .withRLock (congrArg RWMutex.writer h) ?_
  refine .bind (balanced_onPrefixer fun _ _ => trivial) fun p proxy₁ hrun _ => ?_
  obtain ⟨p₁, p₂, hp, hget, rfl⟩ := run_focus_ok hrun
  cases hget
  cases hb : p.getBalancer prefixPath with
  | none => exact .pure _ _
  | some b =>
      refine .bind (balanced_onPrefixer fun p₁ hp₁ => ?_) fun answer _ _ _ => ?_
      · cases hp₁
        refine ended_withBalancer fun b' hb' => ?_
        have hrouter : proxy.prefixMapping = some p := hp
        exact (ended_balance_iff b' balanceUrl none).mpr
          (hwriter b' ((balancerOf_eq hrouter prefixPath).trans hb'))
      · cases answer <;> exact .pure _ _

/-- A read that waits in the balancer keeps the read lock of the proxy. -/
theorem ended_of_loadBalance (h : proxy.mu = .free) {balanceUrl : String}
    (hended : Ended (EStateM.run (loadBalance prefixPath balanceUrl) proxy)) {b : Balancer}
    (hb : proxy.balancerOf prefixPath = some b) : b.mu.writer = false := by
  obtain ⟨p, hp, hb⟩ := Option.bind_eq_some_iff.mp hb
  by_contra hwriter
  have hwait : ¬ Ended (EStateM.run (HashPrefixer.withBalancer prefixPath
      (Balancer.balance balanceUrl none)) p) := by
    rw [HashPrefixer.run_withBalancer, hb]
    dsimp only
    rw [ended_embed, ended_balance_iff]
    exact hwriter
  have hrouter : (HasMutex.setMutex
      { HasMutex.mutex proxy with readers := (HasMutex.mutex proxy).readers + 1 }
      proxy).prefixMapping = some p := hp
  rw [loadBalance, run_withRLock (congrArg RWMutex.writer h), ended_released,
    EStateM.run_bind, run_prefixer hrouter] at hended
  dsimp only at hended
  rw [hb] at hended
  refine not_ended_bind ?_ hended
  rw [run_onPrefixer_some hrouter, ended_embed]
  exact hwait

/-- The loops over the black list touch the tree only. -/
theorem balanced_aclLoop (h : proxy.mu = .free) {α : Type} {call : String → Eff RadixTree α}
    {ips : List String} (hended : Ended (EStateM.run (forEach ips call) proxy.acl)) :
    Balanced (withLock (forEach ips fun ip => onAcl (call ip))) proxy := by
  have hrun := run_forEach_onAcl call ips (locked proxy)
  refine .withLock h ⟨?_, ?_⟩ <;> rw [hrun]
  · exact (ended_embed _ _).mpr hended
  · rw [memory_embed]
    rfl

end Methods

/-- The method ended, and the lock of the proxy is free. -/
structure EndsFree (call : LockedCall) (proxy : HttpReverseProxy) : Prop where
  ended : Ended (EStateM.run call.run proxy)
  free : (memory (EStateM.run call.run proxy)).mu = .free

theorem EndsFree.of_balanced {call : LockedCall} {proxy : HttpReverseProxy} (h : proxy.mu = .free)
    (hbalanced : Balanced call.run proxy) : EndsFree call proxy :=
  ⟨hbalanced.ended, hbalanced.mutex.trans h⟩

/-- Started on a free lock a method ends with the lock free when it is safe;
but for the removal of black-listed networks this is exact. -/
theorem ends_with_lock_free {proxy : HttpReverseProxy} (h : proxy.mu = .free) (call : LockedCall) :
    (call.Safe proxy → EndsFree call proxy) ∧
      ((∀ ips, call ≠ .removeBlackList ips) → EndsFree call proxy → call.Safe proxy) := by
  -- a method without a condition is balanced on every proxy
  cases call with
  | addPrefix prefixPath algo hosts isStatic =>
      exact ⟨fun _ => .of_balanced h (balanced_addPrefix h algo hosts isStatic),
        fun _ _ => trivial⟩
  | removePrefix prefixPath =>
      exact ⟨fun _ => .of_balanced h (balanced_removePrefix h), fun _ _ => trivial⟩
  | getHosts prefixPath =>
      exact ⟨fun _ => .of_balanced h (balanced_lockedGetHosts h).discard, fun _ _ => trivial⟩
  | addHost prefixPath host =>
      refine ⟨fun hsafe => ?_, fun _ hends b hb => ?_⟩
      · exact .of_balanced h
          (balanced_updateHosts h fun b hb => (ended_add_iff b host).mpr (hsafe b hb))
      · exact (ended_add_iff b host).mp (ended_of_updateHosts h hends.ended hb)
  | removeHost prefixPath host =>
      refine ⟨fun hsafe => ?_, fun _ hends b hb => ?_⟩
      · exact .of_balanced h
          (balanced_updateHosts h fun b hb => (ended_remove_iff b host).mpr (hsafe b hb))
      · exact (ended_remove_iff b host).mp (ended_of_updateHosts h hends.ended hb)
  | loadBalance prefixPath balanceUrl =>
      refine ⟨fun hsafe => ?_, fun _ hends b hb => ?_⟩
      · exact .of_balanced h (balanced_loadBalance h balanceUrl hsafe).discard
      · exact ended_of_loadBalance h (ended_of_discard hends.ended) hb
  | addBlackList ips =>
      exact ⟨fun _ => .of_balanced h (balanced_aclLoop h (ended_addAll ips proxy.acl)),
        fun _ _ => trivial⟩
  | removeBlackList ips =>
      exact ⟨fun hsafe => .of_balanced h (balanced_aclLoop h (ended_deleteAll hsafe)),
        fun hne => absurd rfl (hne ips)⟩
  | setRateLimit prefixPath apiPath limiterType init speed =>
      refine ⟨?_, fun _ hends => limiter_of_ended hends.ended⟩
      rintro ⟨limiters, limiter, hl, hlimiter⟩
      exact .of_balanced h (balanced_setRateLimit h hl hlimiter)
  | createRateLimiter prefixPath apiPath limiterType init speed =>
      exact ⟨fun _ => .of_balanced h
        (balanced_createRateLimiter h apiPath limiterType init speed).discard, fun _ _ => trivial⟩
  | checkPrefixExists prefixPath =>
      refine ⟨fun _ => .of_balanced h (Balanced.withLock h ?_).discard, fun _ _ => trivial⟩
      exact .bind (.get _) fun _ _ _ _ => .pure _ _
  | changeStatic prefixPath =>
      exact ⟨fun _ => .of_balanced h (.withLock h (.modify rfl)), fun _ _ => trivial⟩
  | changeLb prefixPath lb =>
      exact ⟨fun _ => .of_balanced h (balanced_changeLb h lb), fun _ _ => trivial⟩
  | start => exact ⟨fun _ => .of_balanced h (.withLock h (.modify rfl)), fun _ _ => trivial⟩
  | stop => exact ⟨fun _ => .of_balanced h (.withLock h (.modify rfl)), fun _ _ => trivial⟩
  | restore order =>
      exact ⟨fun _ => .of_balanced h (balanced_restore h order).discard, fun _ _ => trivial⟩

/-- A new proxy with a prefix on the ring. -/
theorem ends_with_lock_free_registered : ∃ proxy : HttpReverseProxy, proxy.mu = .free ∧
    EndsFree (.addPrefix "/api" "consistence-hash" ["10.0.0.1:80"] false) proxy := by
  obtain ⟨proxy, hnew⟩ : ∃ proxy,
      newHttpReverseProxy ⟨8080, typeHashPrefixer, []⟩ 0 = .ok proxy := ⟨_, rfl⟩
  have h := (sound_newHttpReverseProxy hnew).free
  exact ⟨proxy, h, (ends_with_lock_free h _).1 trivial⟩

/-- On a new proxy no path has a limiter: setting one asks for the lock twice. -/
theorem limiter_deadlock : ¬ ∀ (args : HttpProxyArgs) (shutdown : Nat)
    (proxy : HttpReverseProxy), newHttpReverseProxy args shutdown = .ok proxy →
    ∀ call, EndsFree call proxy := by
  intro hclaim
  obtain ⟨proxy, hnew⟩ : ∃ proxy,
      newHttpReverseProxy ⟨8080, typeHashPrefixer, []⟩ 0 = .ok proxy := ⟨_, rfl⟩
  have hends := hclaim _ 0 proxy hnew (.setRateLimit "/api" "/users" "qps" 10 10)
  obtain ⟨limiters, limiter, hl, hlimiter⟩ := limiter_of_ended hends.ended
  cases hnew
  cases hl
  cases hlimiter

end Proxy
end VermouthGateway
