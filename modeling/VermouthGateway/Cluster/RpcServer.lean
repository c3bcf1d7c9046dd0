import VermouthGateway.Cluster.Leadership

/-!
# The rpc server of a leader

A promotion starts a call of `rpcServer.Start`, which listens, serves, and waits
for a signal to stop.  A demotion sends the signal, from the loop that handles
the notifications; the channel has no buffer, so the loop waits until a call
receives.  The port is free again only when that call has stopped its server.

* `Orderly.step`: what every step keeps.
* `rpc_server_follows_leadership`: one call has the port at most, and between
  two notifications there is one exactly on a leader that was not refused it.
* `loop_returns_iff`: a demotion is handled to its end unless the listen of that
  leadership was refused; then the node handles no notification any more.

Raft notifies of changes only.
-/

namespace VermouthGateway
namespace Cluster

open Go Runs

/-- A node with an rpc server. -/
structure RpcNode where
  node : LeaderNode
  /-- The loop waits in its send to `rpcServerCloseChan`. -/
  sending : Bool
  /-- Calls of `Start` before their `CreateListener`. -/
  starting : Nat
  /-- Calls that listen and wait for the signal. -/
  serving : Nat
  /-- Calls in `server.Stop`. -/
  stopping : Nat

inductive RpcEvent
  | notified (leader : Bool)
  | listened
  | refused
  | received
  | stopped

/-- The steps of the loop and of the calls. -/
inductive RpcStep : RpcNode → RpcEvent → RpcNode → Prop
  | notified {r : RpcNode} {order : DiscoveryOrder} {leader : Bool} {node : LeaderNode}
      (hidle : r.sending = false) (hchange : leader ≠ r.node.leader)
      (hrun : EStateM.run (LeaderNode.handleNotification order leader) r.node = .ok () node) :
      RpcStep r (.notified leader)
        { r with
          node := node
          sending := !leader
          starting := r.starting + leader.toNat }
  -- nobody else has the port
  | listened {r : RpcNode} (hstarting : 0 < r.starting) (hfree : r.serving + r.stopping = 0) :
      RpcStep r .listened { r with starting := r.starting - 1, serving := r.serving + 1 }
  -- an error of `CreateListener` is logged, and the call returns
  | refused {r : RpcNode} (hstarting : 0 < r.starting) :
      RpcStep r .refused { r with starting := r.starting - 1 }
  | received {r : RpcNode} (hsending : r.sending = true) (hserving : 0 < r.serving) :
      RpcStep r .received
        { r with sending := false, serving := r.serving - 1, stopping := r.stopping + 1 }
  | stopped {r : RpcNode} (hstopping : 0 < r.stopping) :
      RpcStep r .stopped { r with stopping := r.stopping - 1 }

/-- Whether the listen of the last leadership was refused. -/
def noteRefused (refused : Bool) : RpcEvent → Bool
  | .notified leader => refused && !leader
  | .refused => true
  | .listened => refused
  | .received => refused
  | .stopped => refused

def refusedLast (events : List RpcEvent) : Bool := events.foldl noteRefused false

/-- The node before its first notification. -/
def RpcNode.start (connects : List String → Int → Bool) (args : List DiscoveryArgs) : RpcNode :=
  ⟨.start connects args, false, 0, 0, 0⟩

/-- A call of `Start` goes with every leadership, until it is refused the port
or has received. -/
structure Orderly (r : RpcNode) (refused : Bool) : Prop where
  alive : r.starting + r.serving = ((r.node.leader || r.sending) && !refused).toNat
  port : r.serving + r.stopping ≤ 1
  sends : r.sending = true → r.node.leader = false
  writes : r.node.checkWritePermission = r.node.leader

section Steps

variable {r r' : RpcNode} {refused : Bool} {event : RpcEvent} {events : List RpcEvent}

theorem orderly_start (connects : List String → Int → Bool) (args : List DiscoveryArgs) :
    Orderly (.start connects args) false := by
  refine ⟨?_, Nat.zero_le 1, nofun, (LeaderNode.leading_start connects args).follows.writing⟩
  rw [RpcNode.start, (LeaderNode.start_frame connects args).1]
  rfl

theorem Orderly.step (h : Orderly r refused) (hstep : RpcStep r event r') :
    Orderly r' (noteRefused refused event) := by
  obtain ⟨halive, hport, hsends, hwrites⟩ := h
  cases hstep with
  | @notified order leader node hidle hchange hrun =>
      obtain ⟨-, rfl⟩ := (LeaderNode.handleNotification_spec order leader _ _).mp hrun
      have hwriting : (LeaderNode.notified order r.node leader).checkWritePermission = leader := by
        cases leader <;> rfl
      cases leader with
      | true =>
          -- the follower had no call left
          have hleader : r.node.leader = false := Bool.eq_false_iff.mpr hchange.symm
          rw [hleader, hidle] at halive
          refine ⟨?_, hport, nofun, hwriting⟩
          show r.starting + 1 + r.serving = (true && !(refused && false)).toNat
          rw [Bool.and_false, Bool.not_false, Bool.and_true, Bool.toNat_true]
          rw [Bool.or_self, Bool.false_and, Bool.toNat_false] at halive
          omega
      | false =>
          have hleader : r.node.leader = true := Bool.eq_true_of_not_eq_false hchange.symm
          refine ⟨?_, hport, fun _ => rfl, hwriting⟩
          show r.starting + r.serving = (true && !(refused && true)).toNat
          rw [halive, hleader, Bool.true_or, Bool.and_true]
  | listened hstarting hfree =>
      refine ⟨?_, ?_, hsends, hwrites⟩
      · show r.starting - 1 + (r.serving + 1) = _
        rw [noteRefused, ← halive]
        omega
      · show r.serving + 1 + r.stopping ≤ 1
        omega
  | refused hstarting =>
      refine ⟨?_, hport, hsends, hwrites⟩
      have hone := Bool.toNat_le ((r.node.leader || r.sending) && !refused)
      show r.starting - 1 + r.serving = ((r.node.leader || r.sending) && !true).toNat
      rw [Bool.not_true, Bool.and_false, Bool.toNat_false]
      omega
  | received hsending hserving =>
      refine ⟨?_, ?_, nofun, hwrites⟩
      · have hone := Bool.toNat_le ((r.node.leader || r.sending) && !refused)
        show r.starting + (r.serving - 1) = ((r.node.leader || false) && !refused).toNat
        rw [hsends hsending, Bool.or_false, Bool.false_and, Bool.toNat_false]
        omega
      · show r.serving - 1 + (r.stopping + 1) ≤ 1
        omega
  | stopped hstopping =>
      refine ⟨halive, ?_, hsends, hwrites⟩
      show r.serving + (r.stopping - 1) ≤ 1
      omega

theorem Orderly.run (h : Orderly r refused) (hrun : Run RpcStep r events r') :
    Orderly r' (events.foldl noteRefused refused) :=
  hrun.refines_all (fun _ _ _ _ h hstep => Orderly.step h hstep) h

/-- A send that no call will receive. -/
structure Deaf (r : RpcNode) : Prop where
  sending : r.sending = true
  leader : r.node.leader = false
  writes : r.node.checkWritePermission = false
  dead : r.starting + r.serving = 0

theorem Deaf.step (h : Deaf r) (hstep : RpcStep r event r') : Deaf r' := by
  obtain ⟨hsending, hleader, hwrites, hdead⟩ := h
  cases hstep with
  | notified hidle hchange hrun =>
      rw [hsending] at hidle
      cases hidle
  | listened hstarting hfree => omega
  | refused hstarting => omega
  | received hsending' hserving => omega
  | stopped hstopping => exact ⟨hsending, hleader, hwrites, hdead⟩

/-- A call that has not received yet can get there. -/
theorem exists_received (hsending : r.sending = true) (halive : 0 < r.starting + r.serving)
    (hport : r.serving + r.stopping ≤ 1) :
    ∃ more r', Run RpcStep r more r' ∧ r'.sending = false := by
  by_cases hserving : 0 < r.serving
  · exact ⟨_, _, .single (.received hsending hserving), rfl⟩
  · have hstarting : 0 < r.starting := by omega
    by_cases hstopping : 0 < r.stopping
    -- the port has to be given back first
    · refine ⟨_, _, .cons (.stopped hstopping) (.cons (.listened hstarting ?_)
        (.single (.received hsending ?_))), rfl⟩
      · show r.serving + (r.stopping - 1) = 0
        omega
      · exact Nat.succ_pos _
    · refine ⟨_, _, .cons (.listened hstarting (by omega)) (.single (.received hsending ?_)), rfl⟩
      exact Nat.succ_pos _

end Steps

/-- A follower without discoveries is promoted. -/
theorem promoted (r : RpcNode) (hnone : r.node.discoveryMap = ∅) (hidle : r.sending = false)
    (hleader : r.node.leader = false) :
    RpcStep r (.notified true)
      { r with
        node := LeaderNode.notified LeaderNode.inKeyOrder r.node true
        sending := false
        starting := r.starting + 1 } := by
  have hchange : true ≠ r.node.leader := by rw [hleader]; decide
  refine .notified hidle hchange
    ((LeaderNode.handleNotification_spec _ _ _ _).mpr ⟨fun _ port hport => ?_, rfl⟩)
  rw [hnone] at hport
  exact absurd hport Finmap.notMem_empty

/-- A leader is demoted. -/
theorem demoted (r : RpcNode) (hidle : r.sending = false) (hleader : r.node.leader = true) :
    RpcStep r (.notified false)
      { r with
        node := LeaderNode.notified LeaderNode.inKeyOrder r.node false
        sending := true } := by
  have hchange : false ≠ r.node.leader := by rw [hleader]; decide
  exact .notified hidle hchange
    ((LeaderNode.handleNotification_spec _ _ _ _).mpr ⟨nofun, rfl⟩)

section Runs

variable {connects : List String → Int → Bool} {args : List DiscoveryArgs} {r : RpcNode}
  {events : List RpcEvent}

/-- In every run one call of `Start` has the port at most.  It listens only on a
leader or until its demotion is handled, and then has the port until it has stopped
its server, which waits for nothing.  Between two notifications a call listens or
is about to exactly on a leader whose listen was not refused. -/
theorem rpc_server_follows_leadership (hrun : Run RpcStep (.start connects args) events r) :
    r.serving + r.stopping ≤ 1 ∧
      (0 < r.serving → r.node.leader = true ∨ r.sending = true) ∧
      (0 < r.stopping → ∃ r', RpcStep r .stopped r' ∧ r'.serving + r'.stopping = 0) ∧
      (r.sending = false → (r.starting + r.serving = 1 ↔
        r.node.leader = true ∧ refusedLast events = false)) := by
  obtain ⟨halive, hport, -, -⟩ := (orderly_start connects args).run hrun
  refine ⟨hport, fun hserving => ?_, fun hstopping => ⟨_, .stopped hstopping, ?_⟩,
    fun hidle => ?_⟩
  · by_contra hneither
    have hnone : (r.node.leader || r.sending) = false :=
      Bool.eq_false_iff.mpr fun hsome => hneither ((Bool.or_eq_true _ _).mp hsome)
    rw [hnone, Bool.false_and, Bool.toNat_false] at halive
    omega
  · show r.serving + (r.stopping - 1) = 0
    omega
  · rw [halive, hidle, Bool.or_false, Bool.toNat_eq_one, Bool.and_eq_true, Bool.not_eq_true']
    rfl

/-- A promotion and a demotion, with the listen in between: the server is being
stopped. -/
theorem rpc_server_follows_leadership_one_term : ∃ r,
    Run RpcStep (.start (fun _ _ => true) [])
      [.notified true, .listened, .notified false, .received] r ∧
    r.serving + r.stopping = 1 ∧ r.starting + r.serving ≠ 1 ∧
    ∃ r', RpcStep r .stopped r' ∧ r'.serving + r'.stopping = 0 := by
  have hrun := Run.cons (promoted (RpcNode.start (fun _ _ => true) []) rfl rfl rfl)
    (.cons (.listened Nat.one_pos rfl) (.cons (demoted _ rfl rfl)
      (.single (.received rfl Nat.one_pos))))
  obtain ⟨-, -, hstops, hlistens⟩ := rpc_server_follows_leadership hrun
  exact ⟨_, hrun, rfl, fun hone => absurd ((hlistens rfl).mp hone).1 Bool.false_ne_true,
    hstops Nat.one_pos⟩

/-- A demotion is handled to its end exactly when the listen of that leadership
was not refused; otherwise the node hears no notification again, and it never
writes. -/
theorem loop_returns_iff (hrun : Run RpcStep (.start connects args) events r)
    (hsending : r.sending = true) :
    ((∃ more r', Run RpcStep r more r' ∧ r'.sending = false) ↔ refusedLast events = false) ∧
      (refusedLast events = true → ∀ more r', Run RpcStep r more r' →
        r'.sending = true ∧ r'.node.leader = false ∧
          r'.node.checkWritePermission = false) := by
  obtain ⟨halive, hport, hsends, hwrites⟩ := (orderly_start connects args).run hrun
  have hdeaf : refusedLast events = true → Deaf r := by
    intro hrefused
    rw [show events.foldl noteRefused false = true from hrefused, Bool.not_true,
      Bool.and_false, Bool.toNat_false] at halive
    exact ⟨hsending, hsends hsending, hwrites.trans (hsends hsending), halive⟩
  have hstays : refusedLast events = true → ∀ more r', Run RpcStep r more r' → Deaf r' :=
    fun hrefused more r' hmore =>
      hmore.invariant (P := Deaf) (fun _ _ _ h hstep => h.step hstep) (hdeaf hrefused)
  refine ⟨⟨?_, fun hlistened => ?_⟩, fun hrefused more r' hmore => ?_⟩
  · rintro ⟨more, r', hmore, hidle⟩
    by_contra hrefused
    have hsending' := (hstays (Bool.eq_true_of_not_eq_false hrefused) more r' hmore).sending
    rw [hidle] at hsending'
    cases hsending'
  · rw [show events.foldl noteRefused false = false from hlistened, hsending, Bool.or_true,
      Bool.not_false, Bool.and_true, Bool.toNat_true] at halive
    exact exists_received hsending (by omega) hport
  · obtain ⟨hsending', hleader, hwriting, -⟩ := hstays hrefused more r' hmore
    exact ⟨hsending', hleader, hwriting⟩

/-- A second promotion comes before the server of the first one has given the
port back. -/
theorem loop_returns_iff_quick_return : ∃ r,
    Run RpcStep (.start (fun _ _ => true) [])
      [.notified true, .listened, .notified false, .received, .notified true, .refused,
        .notified false] r ∧
    r.stopping = 1 ∧
    ∀ more r', Run RpcStep r more r' → r'.sending = true ∧ r'.node.leader = false ∧
      r'.node.checkWritePermission = false := by
  have hrun := Run.cons (promoted (RpcNode.start (fun _ _ => true) []) rfl rfl rfl)
    (.cons (.listened Nat.one_pos rfl) (.cons (demoted _ rfl rfl)
      (.cons (.received rfl Nat.one_pos) (.cons (promoted _ rfl rfl rfl)
        (.cons (.refused Nat.one_pos) (.single (demoted _ rfl rfl)))))))
  exact ⟨_, hrun, rfl, (loop_returns_iff hrun rfl).2 rfl⟩

end Runs

end Cluster
end VermouthGateway
