import VermouthGateway.Balancing.ConsistenceHash
import VermouthGateway.Foundation.CircularLookup

/-!
# The ring of the consistent-hash balancer

A ring over a list of hosts, `RingOf`, has the hashes of the virtual nodes of
each of them, as often as the host occurs, and a map from each hash to the host
it was made for.

* `RingOf.run_add` and `RingOf.run_remove`: what `Add` does to the ring, and
  what `Remove` of a host that is on it does.
* `remove_absent`: `Remove` of a host that is not there never leaves the ring
  as it was.
* `RingOf.balance_answers`: `Balance` answers the owner of the successor of the
  hash, as in `CircularLookup`.

All of this is for any hash that separates the texts of the virtual nodes.
-/

namespace VermouthGateway
namespace Balancing

open Go CircularLookup

/-- The hash of a text. -/
def textHash (hash : Hash) (text : String) : Nat := (hash text.toUTF8.data.toList).toNat

/-- The hashes of the virtual nodes of a host, on a ring with three replicas. -/
def nodeHashes (hash : Hash) (host : String) : List Nat :=
  (List.range 3).map fun i => textHash hash (toString i ++ host)

/-- The texts of the virtual nodes of some hosts. -/
def virtualNodes (hosts : Set String) : Set String :=
  {text | ∃ host ∈ hosts, ∃ i < 3, text = toString i ++ host}

/-- The texts of the virtual nodes have pairwise distinct hashes. -/
def Separates (hash : Hash) (hosts : Set String) : Prop :=
  Set.InjOn (textHash hash) (virtualNodes hosts)

theorem Separates.mono {hash : Hash} {hosts hosts' : Set String} (h : Separates hash hosts')
    (hsub : hosts ⊆ hosts') : Separates hash hosts := by
  refine Set.InjOn.mono ?_ h
  rintro text ⟨host, hhost, hnode⟩
  exact ⟨host, hsub hhost, hnode⟩

/-- The digit in front tells virtual nodes of one host from those of another. -/
theorem host_of_virtualNode {i j : Nat} {host host' : String} (hi : i < 3) (hj : j < 3)
    (htext : toString i ++ host = toString j ++ host') : host = host' := by
  have hchars := congrArg String.toList htext
  rw [String.toList_append, String.toList_append] at hchars
  have hdigit : ∀ n < 3, (toString n).toList.length = 1 := by decide
  have hlength : (toString i).toList.length = (toString j).toList.length := by
    rw [hdigit i hi, hdigit j hj]
  exact String.toList_inj.mp (List.append_inj hchars hlength).2

/-- A hash belongs to the virtual nodes of one host only. -/
theorem Separates.host_unique {hash : Hash} {hosts : Set String} (h : Separates hash hosts)
    {host host' : String} (hhost : host ∈ hosts) (hhost' : host' ∈ hosts) {k : Nat}
    (hk : k ∈ nodeHashes hash host) (hk' : k ∈ nodeHashes hash host') : host = host' := by
  obtain ⟨i, hi, rfl⟩ := List.mem_map.mp hk
  obtain ⟨j, hj, heq⟩ := List.mem_map.mp hk'
  have hi3 := List.mem_range.mp hi
  have hj3 := List.mem_range.mp hj
  have htext := h ⟨host', hhost', j, hj3, rfl⟩ ⟨host, hhost, i, hi3, rfl⟩ heq
  exact (host_of_virtualNode hj3 hi3 htext).symm

/-- Hashes can be compared one by one. -/
theorem separates_of_nodup {hash : Hash} {hosts : List String}
    (hnodup : (hosts.flatMap (nodeHashes hash)).Nodup) : Separates hash {q | q ∈ hosts} := by
  have hmap : hosts.flatMap (nodeHashes hash) = (hosts.flatMap fun host =>
      (List.range 3).map fun i => toString i ++ host).map (textHash hash) := by
    rw [List.map_flatMap]
    simp only [List.map_map]
    rfl
  rw [hmap] at hnodup
  have htext : ∀ text ∈ virtualNodes {q | q ∈ hosts}, text ∈ hosts.flatMap fun host =>
      (List.range 3).map fun i => toString i ++ host := by
    rintro text ⟨host, hhost, i, hi, rfl⟩
    exact List.mem_flatMap.mpr ⟨host, hhost, List.mem_map_of_mem (List.mem_range.mpr hi)⟩
  intro text htext₁ text' htext₂ heq
  exact List.inj_on_of_nodup_map hnodup (htext text htext₁) (htext text' htext₂) heq

/-! ## Rings with any hash -/

/-- `NewConsistenceHash` with another hash in the place of `crc32.ChecksumIEEE`. -/
def newRing (hash : Hash) (hosts : List String) : ConsistenceHash :=
  hosts.foldl
    (fun ch host =>
      let ch := ch.addRing host
      { ch with list := ch.list ++ [host] })
    { mu := .free, hash := hash, replicas := 3, keys := [], hosts := ∅, list := [] }

theorem newRing_checksumIEEE (hosts : List String) :
    newRing checksumIEEE hosts = newConsistenceHash hosts := rfl

/-- The ring over a list of hosts, each as often as it is listed. -/
structure RingOf (hash : Hash) (hosts : List String) (c : ConsistenceHash) : Prop where
  hash_eq : c.hash = hash
  replicas_eq : c.replicas = 3
  sorted : c.keys.Pairwise (· ≤ ·)
  keys_perm : c.keys.Perm (hosts.flatMap (nodeHashes hash))
  lookup_iff : ∀ k host,
    c.hosts.lookup k = some host ↔ host ∈ hosts ∧ k ∈ nodeHashes hash host

namespace ConsistenceHash

/-- The loop of `Add`. -/
theorem foldl_addReplica (host : String) (is : List Nat) (c : ConsistenceHash) :
    is.foldl (addReplica host) c =
      { c with
        keys := c.keys ++ is.map (c.virtualHash host)
        hosts := (is.map (c.virtualHash host)).foldl (fun m k => m.insert k host) c.hosts } := by
  induction is generalizing c with
  | nil => rw [List.map_nil, List.append_nil, List.foldl_nil, List.foldl_nil]
  | cons i is ih =>
      rw [List.foldl_cons, ih, List.map_cons, List.foldl_cons]
      have hkeys : (addReplica host c i).keys ++ is.map ((addReplica host c i).virtualHash host) =
          c.keys ++ c.virtualHash host i :: is.map (c.virtualHash host) :=
        List.append_assoc c.keys [c.virtualHash host i] _
      rw [hkeys]
      rfl

theorem addRing_eq (host : String) (c : ConsistenceHash) :
    addRing host c =
      { c with
        keys := (c.keys ++ c.virtualHashes host).insertionSort (· ≤ ·)
        hosts := (c.virtualHashes host).foldl (fun m k => m.insert k host) c.hosts } := by
  rw [addRing, foldl_addReplica]
  rfl

/-- The loop of `Remove`, when all its keys are on the ring. -/
theorem run_removeReplicas_ok (host : String) (is : List Nat) (c : ConsistenceHash)
    (hsorted : c.keys.Pairwise (· ≤ ·)) (hsub : (is.map (c.virtualHash host)).Subperm c.keys) :
    EStateM.run (is.forM (removeReplica host)) c = .ok ()
      { c with
        keys := c.keys.diff (is.map (c.virtualHash host))
        hosts := (is.map (c.virtualHash host)).foldl (fun m k => m.erase k) c.hosts } := by
  induction is generalizing c with
  | nil => rfl
  | cons i is ih =>
      rw [List.map_cons] at hsub
      have hmem : c.virtualHash host i ∈ c.keys := hsub.subset List.mem_cons_self
      have hidx : searchInts c.keys (c.virtualHash host i) < c.keys.length :=
        (search_lt_iff c.keys _).mpr ⟨_, hmem, le_rfl⟩
      have hcut : c.keys.eraseIdx (searchInts c.keys (c.virtualHash host i)) =
          c.keys.erase (c.virtualHash host i) := erase_eq_eraseIdx_search hsorted hmem
      have hsplit : (i :: is).forM (removeReplica host) =
          removeReplica host i >>= fun _ => is.forM (removeReplica host) := rfl
      rw [hsplit, EStateM.run_bind, run_removeReplica, if_pos hidx, hcut]
      dsimp only
      have hrest := hsub.erase (c.virtualHash host i)
      rw [List.erase_cons_head] at hrest
      rw [ih { c with
          keys := c.keys.erase (c.virtualHash host i)
          hosts := c.hosts.erase (c.virtualHash host i) }
        (hsorted.sublist List.erase_sublist) hrest]
      rw [List.map_cons, List.diff_cons, List.foldl_cons]
      rfl

/-- Every round of the loop of `Remove` that returns takes one key. -/
theorem length_removeReplicas {host : String} {is : List Nat} {c c' : ConsistenceHash}
    (hrun : EStateM.run (is.forM (removeReplica host)) c = .ok () c') :
    c'.keys.length + is.length = c.keys.length := by
  induction is generalizing c with
  | nil =>
      cases hrun
      rfl
  | cons i is ih =>
      have hsplit : (i :: is).forM (removeReplica host) =
          removeReplica host i >>= fun _ => is.forM (removeReplica host) := rfl
      rw [hsplit] at hrun
      obtain ⟨_, c₁, hround, hrest⟩ := run_bind_ok hrun
      rw [run_removeReplica] at hround
      split at hround
      · next hidx =>
          cases hround
          have hlength := ih hrest
          rw [List.length_eraseIdx_of_lt hidx] at hlength
          rw [List.length_cons]
          omega
      · cases hround

/-- `Remove` takes a key for each replica, whether the host is there or not. -/
theorem length_remove {host : String} {c c' : ConsistenceHash}
    (hrun : EStateM.run (remove host) c = .ok () c') :
    c'.keys.length + c.replicas = c.keys.length := by
  have hcompletes : Completes (EStateM.run (remove host) c) := by rw [hrun]; trivial
  rw [run_remove_eq ((completes_remove_iff host).mp hcompletes).1] at hrun
  obtain ⟨c₁, hbody, rfl⟩ := released_eq_ok hrun
  rw [removeBody] at hbody
  obtain ⟨_, c₂, hloop, hlast⟩ := run_bind_ok hbody
  cases hlast
  have hlength := length_removeReplicas hloop
  rw [List.length_range] at hlength
  exact hlength

end ConsistenceHash

namespace RingOf

open ConsistenceHash

variable {hash : Hash} {hosts : List String} {c : ConsistenceHash} {host : String}

/-- The ring does not depend on the lock or on the list. -/
theorem frame (h : RingOf hash hosts c) (mu : RWMutex) (list : List String) :
    RingOf hash hosts { c with mu := mu, list := list } where
  hash_eq := h.hash_eq
  replicas_eq := h.replicas_eq
  sorted := h.sorted
  keys_perm := h.keys_perm
  lookup_iff := h.lookup_iff

theorem virtualHashes_eq (h : RingOf hash hosts c) (host : String) :
    c.virtualHashes host = nodeHashes hash host := by
  rw [virtualHashes, nodeHashes, h.replicas_eq, ← h.hash_eq]
  rfl

theorem mem_keys_iff (h : RingOf hash hosts c) (k : Nat) :
    k ∈ c.keys ↔ ∃ host ∈ hosts, k ∈ nodeHashes hash host := by
  rw [h.keys_perm.mem_iff, List.mem_flatMap]

/-- The keys of the ring are the keys of the map. -/
theorem placed_eq (h : RingOf hash hosts c) : placed c.hosts.lookup = {k | k ∈ c.keys} := by
  ext k
  constructor
  · intro hk
    obtain ⟨host, hhost⟩ := Option.isSome_iff_exists.mp hk
    exact (h.mem_keys_iff k).mpr ⟨host, (h.lookup_iff k host).mp hhost⟩
  · intro hk
    obtain ⟨host, hhost⟩ := (h.mem_keys_iff k).mp hk
    exact mem_placed ((h.lookup_iff k host).mpr hhost)

theorem empty (hash : Hash) :
    RingOf hash [] ⟨.free, hash, 3, [], ∅, []⟩ where
  hash_eq := rfl
  replicas_eq := rfl
  sorted := List.Pairwise.nil
  keys_perm := List.Perm.nil
  lookup_iff k host := by simp

/-- One host more. -/
theorem addRing (h : RingOf hash hosts c) (hsep : Separates hash {q | q ∈ hosts ++ [host]}) :
    RingOf hash (hosts ++ [host]) (c.addRing host) := by
  have hnew : host ∈ hosts ++ [host] := List.mem_append_right hosts List.mem_cons_self
  rw [addRing_eq, h.virtualHashes_eq]
  refine ⟨h.hash_eq, h.replicas_eq, List.pairwise_insertionSort _ _, ?_, ?_⟩
  · refine (List.perm_insertionSort _ _).trans ?_
    rw [List.flatMap_append, List.flatMap_singleton]
    exact h.keys_perm.append_right _
  · intro k q
    dsimp only
    rw [GoMap.lookup_foldl_insert]
    split
    · next hk =>
        constructor
        · intro hq
          cases hq
          exact ⟨hnew, hk⟩
        · rintro ⟨hq, hkq⟩
          rw [hsep.host_unique hnew hq hk hkq]
    · next hk =>
        rw [h.lookup_iff]
        constructor
        · rintro ⟨hq, hkq⟩
          exact ⟨List.mem_append_left _ hq, hkq⟩
        · rintro ⟨hq, hkq⟩
          refine ⟨(List.mem_append.mp hq).resolve_right fun hlast => ?_, hkq⟩
          rw [List.mem_singleton.mp hlast] at hkq
          exact hk hkq

theorem run_add (h : RingOf hash hosts c) (hfree : c.mu = .free)
    (hsep : Separates hash {q | q ∈ hosts ++ [host]}) :
    ∃ c', EStateM.run (add host) c = .ok () c' ∧ c'.mu = .free ∧ c'.list = c.list ∧
      RingOf hash (hosts ++ [host]) c' := by
  have hring := (h.frame { writer := true } c.list).addRing hsep
  have hmu : (ConsistenceHash.addRing host (locked c)).mu = { writer := true } :=
    addRing_mu host (locked c)
  refine ⟨_, ConsistenceHash.run_add hfree host, ?_, addRing_list host (locked c), ?_⟩
  · show { (ConsistenceHash.addRing host (locked c)).mu with writer := false } = RWMutex.free
    rw [hmu]
    rfl
  · exact hring.frame _ _

/-- The hashes of a host on the ring are keys, as often as they occur. -/
theorem nodeHashes_subperm (h : RingOf hash hosts c) (hmem : host ∈ hosts) :
    (nodeHashes hash host ++ c.keys.diff (nodeHashes hash host)).Perm c.keys ∧
      (c.keys.diff (nodeHashes hash host)).Perm
        ((hosts.erase host).flatMap (nodeHashes hash)) := by
  have hsplit : c.keys.Perm
      (nodeHashes hash host ++ (hosts.erase host).flatMap (nodeHashes hash)) :=
    h.keys_perm.trans ((List.perm_cons_erase hmem).flatMap_right _)
  have hsub : (nodeHashes hash host).Subperm c.keys :=
    (List.sublist_append_left _ _).subperm.trans hsplit.symm.subperm
  have hjoin := List.subperm_append_diff_self_of_count_le
    (List.subperm_ext_iff.mp hsub)
  exact ⟨hjoin, (List.perm_append_left_iff _).mp (hjoin.trans hsplit)⟩

end RingOf

/-- What is left of the ring over `hosts` when one occurrence of `host` is
taken out of the keys, and the host out of the map. -/
structure RingWithout (hash : Hash) (hosts : List String) (host : String)
    (c : ConsistenceHash) : Prop where
  hash_eq : c.hash = hash
  replicas_eq : c.replicas = 3
  sorted : c.keys.Pairwise (· ≤ ·)
  keys_perm : c.keys.Perm ((hosts.erase host).flatMap (nodeHashes hash))
  lookup_iff : ∀ k q,
    c.hosts.lookup k = some q ↔ q ≠ host ∧ q ∈ hosts ∧ k ∈ nodeHashes hash q

theorem perm_filter_of_count_one {hosts : List String} {host : String}
    (hcount : hosts.count host = 1) : (hosts.erase host).Perm (hosts.filter (· ≠ host)) := by
  rw [List.perm_iff_count]
  intro q
  by_cases hq : q = host
  · subst hq
    have hnot : q ∉ hosts.filter (· ≠ q) := fun hmem => by simp at hmem
    rw [List.count_erase_self, hcount, List.count_eq_zero.mpr hnot]
  · rw [List.count_erase_of_ne hq, List.count_filter (by simpa using hq)]

namespace RingWithout

variable {hash : Hash} {hosts : List String} {c : ConsistenceHash} {host : String}

/-- A host that occurred once is gone. -/
theorem ringOf (h : RingWithout hash hosts host c) (hcount : hosts.count host = 1) :
    RingOf hash (hosts.filter (· ≠ host)) c where
  hash_eq := h.hash_eq
  replicas_eq := h.replicas_eq
  sorted := h.sorted
  keys_perm := h.keys_perm.trans ((perm_filter_of_count_one hcount).flatMap_right _)
  lookup_iff k q := by
    rw [h.lookup_iff, List.mem_filter, decide_eq_true_eq]
    tauto

/-- A host that occurred more often leaves keys behind that no entry explains. -/
theorem dangling (h : RingWithout hash hosts host c) (hsep : Separates hash {q | q ∈ hosts})
    (hcount : 1 < hosts.count host) : ∃ k ∈ c.keys, c.hosts.lookup k = none := by
  have hleft : host ∈ hosts.erase host := by
    rw [← List.count_pos_iff, List.count_erase_self]
    omega
  have hmem : host ∈ hosts := List.mem_of_mem_erase hleft
  have hnode : textHash hash (toString 0 ++ host) ∈ nodeHashes hash host :=
    List.mem_map_of_mem (List.mem_range.mpr (by decide))
  refine ⟨_, h.keys_perm.mem_iff.mpr (List.mem_flatMap.mpr ⟨host, hleft, hnode⟩), ?_⟩
  rw [← Option.not_isSome_iff_eq_none]
  intro hsome
  obtain ⟨q, hq⟩ := Option.isSome_iff_exists.mp hsome
  obtain ⟨hne, hqmem, hkq⟩ := (h.lookup_iff _ q).mp hq
  exact hne (hsep.host_unique hqmem hmem hkq hnode)

end RingWithout

namespace RingOf

open ConsistenceHash

variable {hash : Hash} {hosts : List String} {c : ConsistenceHash} {host : String}

theorem run_remove (h : RingOf hash hosts c) (hfree : c.mu = .free)
    (hsep : Separates hash {q | q ∈ hosts}) (hmem : host ∈ hosts) :
    ∃ c', EStateM.run (remove host) c = .ok () c' ∧ c'.mu = .free ∧
      c'.list = c.list.erase host ∧ RingWithout hash hosts host c' := by
  obtain ⟨hjoin, hleft⟩ := h.nodeHashes_subperm hmem
  have hhashes : (List.range c.replicas).map (c.virtualHash host) = nodeHashes hash host :=
    h.virtualHashes_eq host
  have hsub : ((List.range c.replicas).map ((locked c).virtualHash host)).Subperm
      (locked c).keys := by
    show ((List.range c.replicas).map (c.virtualHash host)).Subperm c.keys
    rw [hhashes]
    exact (List.sublist_append_left _ _).subperm.trans hjoin.subperm
  have hloop := run_removeReplicas_ok host (List.range c.replicas) (locked c) h.sorted hsub
  have hbody : EStateM.run (removeBody host c.replicas) (locked c) = .ok ()
      { locked c with
        keys := c.keys.diff (nodeHashes hash host)
        hosts := (nodeHashes hash host).foldl (fun m k => m.erase k) c.hosts
        list := c.list.erase host } := by
    rw [removeBody, EStateM.run_bind, hloop]
    rw [← hhashes]
    rfl
  refine ⟨_, by rw [run_remove_eq hfree, hbody, released_ok], rfl, rfl, ?_⟩
  refine ⟨h.hash_eq, h.replicas_eq, h.sorted.sublist (List.diff_sublist _ _), hleft, ?_⟩
  intro k q
  show ((nodeHashes hash host).foldl (fun m k => m.erase k) c.hosts).lookup k = some q ↔ _
  rw [GoMap.lookup_foldl_erase]
  split
  · next hk =>
      refine iff_of_false (fun hnone => by cases hnone) ?_
      rintro ⟨hne, hq, hkq⟩
      exact hne (hsep.host_unique hq hmem hkq hk)
  · next hk =>
      rw [h.lookup_iff]
      refine ⟨fun hq => ⟨?_, hq⟩, fun hq => hq.2⟩
      rintro rfl
      exact hk hq.2

theorem keys_eq_nil_iff (h : RingOf hash hosts c) : c.keys = [] ↔ hosts = [] := by
  constructor
  · intro hkeys
    rw [List.eq_nil_iff_forall_not_mem]
    intro host hmem
    have hnode : textHash hash (toString 0 ++ host) ∈ c.keys :=
      (h.mem_keys_iff _).mpr ⟨host, hmem, List.mem_map_of_mem (List.mem_range.mpr (by decide))⟩
    rw [hkeys] at hnode
    cases hnode
  · rintro rfl
    exact h.keys_perm.eq_nil

/-- `Balance` answers the owner of the successor of the hash. -/
theorem run_balance (h : RingOf hash hosts c) (hwriter : c.mu.writer = false) (hne : hosts ≠ [])
    {key : String} (url : String) (r : Option Utils.Request) (hkey : balanceKey url r = .ok key) :
    ∃ g ∈ hosts, EStateM.run (balance url r) c = .ok (.ok g) c.withReader ∧
      Answers c.hosts.lookup (textHash hash key) g := by
  have hkeys : c.keys ≠ [] := fun hnil => hne (h.keys_eq_nil_iff.mp hnil)
  have hsucc := isSuccessor_search h.sorted hkeys (textHash hash key) 0
  obtain ⟨g, hg, hnode⟩ := (h.mem_keys_iff _).mp hsucc.1
  have hlookup := (h.lookup_iff _ g).mpr ⟨hg, hnode⟩
  refine ⟨g, hg, ?_, _, ?_, hlookup⟩
  · rw [ConsistenceHash.run_balance hwriter, if_neg hkeys, hkey, h.hash_eq]
    exact congrArg (fun q => EStateM.Result.ok (Except.ok q) c.withReader)
      (GoMap.get_of_lookup hlookup)
  · rw [h.placed_eq]
    exact hsucc

theorem run_balance_empty (h : RingOf hash [] c) (hwriter : c.mu.writer = false) (url : String)
    (r : Option Utils.Request) :
    EStateM.run (balance url r) c = .ok (.error .cantFindAnyHost) c.withReader := by
  rw [ConsistenceHash.run_balance hwriter, if_pos (h.keys_eq_nil_iff.mpr rfl)]

/-- `Remove` of a host that is not on the ring never leaves it as it was. -/
theorem remove_absent (h : RingOf hash hosts c) :
    EStateM.run (remove host) c ≠ .ok () c := by
  intro hrun
  have hlength := length_remove hrun
  rw [h.replicas_eq] at hlength
  omega

end RingOf

theorem newRing_append (hash : Hash) (hosts : List String) (host : String) :
    newRing hash (hosts ++ [host]) =
      { (newRing hash hosts).addRing host with
        list := ((newRing hash hosts).addRing host).list ++ [host] } := by
  rw [newRing, List.foldl_append, List.foldl_cons, List.foldl_nil]
  rfl

/-- A new ring is the ring over the hosts it was given, however often each. -/
theorem ringOf_newRing {hash : Hash} {hosts : List String}
    (hsep : Separates hash {q | q ∈ hosts}) :
    RingOf hash hosts (newRing hash hosts) ∧ (newRing hash hosts).mu = .free ∧
      (newRing hash hosts).list = hosts := by
  induction hosts using List.reverseRecOn with
  | nil => exact ⟨RingOf.empty hash, rfl, rfl⟩
  | append_singleton hosts host ih =>
      obtain ⟨hring, hfree, hlist⟩ := ih (hsep.mono fun q hq => List.mem_append_left [host] hq)
      rw [newRing_append]
      refine ⟨(hring.addRing hsep).frame _ _, ?_, ?_⟩
      · exact (ConsistenceHash.addRing_mu host _).trans hfree
      · show ((newRing hash hosts).addRing host).list ++ [host] = hosts ++ [host]
        rw [ConsistenceHash.addRing_list, hlist]

end Balancing
end VermouthGateway
