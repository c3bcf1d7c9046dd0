import VermouthGateway.Balancing.RoundRobin
import VermouthGateway.Utils.Net
import VermouthGateway.Go.Map
import Mathlib.Data.List.Sort

/-!
# The consistent-hash balancer

`ConsistenceHash` keeps a ring of virtual nodes, three for a host: the sorted
list `keys` of their hashes and the map `hosts` back to the host.  Besides the
ring there is `list`, the hosts the constructor was given; `Add` does not
extend it, and `Hosts` answers it.

* `Balance` takes the read lock and defers `RLocker()`, which does not release
  it: every call leaves one more reader behind.
* `Remove` cuts the ring at the first key that is not below the hash of a
  virtual node, and is out of bounds when there is none.
-/

namespace VermouthGateway
namespace Balancing

open Go

/-- `Hash`. -/
abbrev Hash := List UInt8 → UInt32

/-- One bit of the reflected CRC-32 division. -/
def crcBit (crc : UInt32) : UInt32 :=
  if crc &&& 1 = 1 then (crc >>> 1) ^^^ 0xEDB88320 else crc >>> 1

/-- One byte of the division. -/
def crcByte (crc : UInt32) (byte : UInt8) : UInt32 :=
  crcBit^[8] (crc ^^^ byte.toUInt32)

/-- `crc32.ChecksumIEEE`. -/
def checksumIEEE : Hash := fun data => ~~~ data.foldl crcByte 0xffffffff

structure ConsistenceHash where
  mu : RWMutex
  hash : Hash
  replicas : Nat
  keys : List Nat
  hosts : GoMap Nat String
  list : List String

instance : HasMutex ConsistenceHash where
  mutex c := c.mu
  setMutex mu c := { c with mu := mu }
  mutex_setMutex _ _ := rfl
  setMutex_setMutex _ _ _ := rfl
  setMutex_mutex _ := rfl

/-- `TypeConsistenceHash`. -/
def typeConsistenceHash : String := "consistence-hash"

/-- `sort.SearchInts`: the first index of a sorted list whose element is not
below `x`, the length of the list when there is none. -/
def searchInts (keys : List Nat) (x : Nat) : Nat := keys.findIdx fun key => x ≤ key

namespace ConsistenceHash

/-- The hash of the `i`-th virtual node of a host. -/
def virtualHash (c : ConsistenceHash) (host : String) (i : Nat) : Nat :=
  (c.hash (toString i ++ host).toUTF8.data.toList).toNat

/-- One round of the loop of `Add`. -/
def addReplica (host : String) (c : ConsistenceHash) (i : Nat) : ConsistenceHash :=
  { c with
    keys := c.keys ++ [c.virtualHash host i]
    hosts := c.hosts.insert (c.virtualHash host i) host }

/-- The body of `Add`. -/
def addRing (host : String) (c : ConsistenceHash) : ConsistenceHash :=
  let c := (List.range c.replicas).foldl (addReplica host) c
  { c with keys := c.keys.insertionSort (· ≤ ·) }

/-- `ConsistenceHash.Add`. -/
def add (host : String) : Eff ConsistenceHash Unit := withLock do
  modify (addRing host)

/-- One round of the loop of `Remove`. -/
def removeReplica (host : String) (i : Nat) : Eff ConsistenceHash Unit := do
  let c ← get
  let hash := c.virtualHash host i
  let idx := searchInts c.keys hash
  if idx < c.keys.length then
    -- the slice is cut at the place where the key would stand, whether it is there or not
    set { c with keys := c.keys.eraseIdx idx, hosts := c.hosts.erase hash }
  else panic .sliceBounds

/-- `ConsistenceHash.Remove`. -/
def remove (host : String) : Eff ConsistenceHash Unit := withLock do
  let c ← get
  (List.range c.replicas).forM (removeReplica host)
  modify fun c => { c with list := c.list.erase host }

/-- The text `Balance` hashes: the address of the client and its token, or the
given url when there is no request. -/
def balanceKey (url : String) : Option Utils.Request → Except Halt String
  | none => .ok url
  | some r =>
      match beforeLast (Utils.remoteIp r) ':' with
      | none => .error (.panic .sliceBounds)
      | some ip => .ok (ip ++ "." ++ r.header "Authorization")

/-- `ConsistenceHash.Balance`.  Nothing releases the read lock. -/
def balance (url : String) (r : Option Utils.Request) :
    Eff ConsistenceHash (Except BalanceError String) := do
  rlock
  let c ← get
  -- no `runlock` on either way out: the deferred call is `RLocker`, which only returns a locker
  if c.keys = [] then pure (.error .cantFindAnyHost)
  else
    let key ← ofPure (balanceKey url r)
    let hash := (c.hash key.toUTF8.data.toList).toNat
    let idx := searchInts c.keys hash
    pure (.ok (c.hosts.get (c.keys.getD (idx % c.keys.length) 0) ""))

end ConsistenceHash

/-- `NewConsistenceHash`. -/
def newConsistenceHash (hosts : List String) : ConsistenceHash :=
  hosts.foldl
    (fun ch host =>
      let ch := ch.addRing host
      { ch with list := ch.list ++ [host] })
    { mu := .free, hash := checksumIEEE, replicas := 3, keys := [], hosts := ∅, list := [] }

namespace ConsistenceHash

/-! ## What the operations change -/

@[simp] theorem addReplica_mu (host : String) (c : ConsistenceHash) (i : Nat) :
    (addReplica host c i).mu = c.mu := rfl

@[simp] theorem addReplica_list (host : String) (c : ConsistenceHash) (i : Nat) :
    (addReplica host c i).list = c.list := rfl

theorem foldl_addReplica_frame (host : String) (is : List Nat) (c : ConsistenceHash) :
    (is.foldl (addReplica host) c).mu = c.mu ∧
      (is.foldl (addReplica host) c).list = c.list := by
  induction is generalizing c with
  | nil => exact ⟨rfl, rfl⟩
  | cons i is ih => exact ih (addReplica host c i)

@[simp] theorem addRing_mu (host : String) (c : ConsistenceHash) :
    (addRing host c).mu = c.mu :=
  (foldl_addReplica_frame host (List.range c.replicas) c).1

/-- `Add` leaves the list of hosts alone. -/
@[simp] theorem addRing_list (host : String) (c : ConsistenceHash) :
    (addRing host c).list = c.list :=
  (foldl_addReplica_frame host (List.range c.replicas) c).2

theorem newConsistenceHash_mu (hosts : List String) : (newConsistenceHash hosts).mu = .free := by
  induction hosts using List.reverseRecOn with
  | nil => rfl
  | append_singleton hosts host ih =>
      rw [newConsistenceHash, List.foldl_append, List.foldl_cons, List.foldl_nil]
      exact (addRing_mu host _).trans ih

theorem newConsistenceHash_list (hosts : List String) :
    (newConsistenceHash hosts).list = hosts := by
  induction hosts using List.reverseRecOn with
  | nil => rfl
  | append_singleton hosts host ih =>
      rw [newConsistenceHash, List.foldl_append, List.foldl_cons, List.foldl_nil]
      show (addRing host _).list ++ [host] = hosts ++ [host]
      rw [addRing_list]
      exact congrArg (· ++ [host]) ih

theorem run_add {c : ConsistenceHash} (hfree : c.mu = .free) (host : String) :
    EStateM.run (add host) c =
      .ok () (unlock (addRing host (locked c))) := by
  rw [add, run_withLock_modify hfree]

/-- The ring has a key to cut for every hash, one after the other. -/
def Removable : List Nat → List Nat → Prop
  | [], _ => True
  | hash :: hashes, keys =>
      searchInts keys hash < keys.length ∧
        Removable hashes (keys.eraseIdx (searchInts keys hash))

/-- The hashes of the virtual nodes of a host. -/
def virtualHashes (c : ConsistenceHash) (host : String) : List Nat :=
  (List.range c.replicas).map (c.virtualHash host)

theorem run_removeReplica (host : String) (i : Nat) (c : ConsistenceHash) :
    EStateM.run (removeReplica host i) c =
      if searchInts c.keys (c.virtualHash host i) < c.keys.length then
        .ok () { c with
          keys := c.keys.eraseIdx (searchInts c.keys (c.virtualHash host i))
          hosts := c.hosts.erase (c.virtualHash host i) }
      else .error (.panic .sliceBounds) c := by
  rw [removeReplica, EStateM.run_bind, EStateM.run_get]
  dsimp only
  rw [run_ite]
  rfl

/-- The loop of `Remove` returns exactly when every cut is in bounds, and
changes the ring only. -/
theorem run_removeReplicas (host : String) (is : List Nat) (c : ConsistenceHash) :
    (Completes (EStateM.run (is.forM (removeReplica host)) c) ↔
      Removable (is.map (c.virtualHash host)) c.keys) ∧
    ∃ keys hosts, memory (EStateM.run (is.forM (removeReplica host)) c) =
      { c with keys := keys, hosts := hosts } := by
  induction is generalizing c with
  | nil => exact ⟨by simp [Removable], c.keys, c.hosts, rfl⟩
  | cons i is ih =>
      have hsplit : (i :: is).forM (removeReplica host) =
          removeReplica host i >>= fun _ => is.forM (removeReplica host) := rfl
      rw [hsplit, EStateM.run_bind, run_removeReplica]
      by_cases hidx : searchInts c.keys (c.virtualHash host i) < c.keys.length
      · rw [if_pos hidx]
        dsimp only
        obtain ⟨hiff, keys, hosts, hmem⟩ := ih { c with
          keys := c.keys.eraseIdx (searchInts c.keys (c.virtualHash host i))
          hosts := c.hosts.erase (c.virtualHash host i) }
        refine ⟨?_, keys, hosts, hmem⟩
        rw [hiff]
        exact ⟨fun h => ⟨hidx, h⟩, fun h => h.2⟩
      · rw [if_neg hidx]
        exact ⟨⟨fun h => absurd h (not_completes_error _ _), fun h => absurd h.1 hidx⟩,
          c.keys, c.hosts, rfl⟩

/-- The body of `Remove`. -/
def removeBody (host : String) (replicas : Nat) : Eff ConsistenceHash Unit := do
  (List.range replicas).forM (removeReplica host)
  modify fun c => { c with list := c.list.erase host }

theorem run_remove_eq {c : ConsistenceHash} (hfree : c.mu = .free) (host : String) :
    EStateM.run (remove host) c =
      released unlock (EStateM.run (removeBody host c.replicas) (locked c)) := by
  rw [remove, run_withLock_free hfree, EStateM.run_bind, EStateM.run_get]
  rfl

theorem completes_removeBody_iff (host : String) (replicas : Nat) (c : ConsistenceHash) :
    Completes (EStateM.run (removeBody host replicas) c) ↔
      Removable ((List.range replicas).map (c.virtualHash host)) c.keys := by
  rw [removeBody, EStateM.run_bind, ← (run_removeReplicas host (List.range replicas) c).1]
  cases EStateM.run ((List.range replicas).forM (removeReplica host)) c <;> exact Iff.rfl

theorem completes_remove_iff {c : ConsistenceHash} (host : String) :
    Completes (EStateM.run (remove host) c) ↔
      c.mu = .free ∧ Removable (c.virtualHashes host) c.keys := by
  by_cases hfree : c.mu = .free
  · rw [run_remove_eq hfree, completes_released, completes_removeBody_iff]
    exact ⟨fun h => ⟨hfree, h⟩, fun h => h.2⟩
  · rw [remove, run_withLock_held hfree]
    exact ⟨fun h => absurd h (not_completes_error _ _), fun h => absurd h.1 hfree⟩

/-- `Remove`, when it returns, takes the host off the list. -/
theorem run_remove_ok {c c' : ConsistenceHash} {host : String}
    (h : EStateM.run (remove host) c = .ok () c') :
    ∃ keys hosts, c' = { c with keys := keys, hosts := hosts, list := c.list.erase host } := by
  have hfree : c.mu = .free := by
    have hcomplete : Completes (EStateM.run (remove host) c) := by rw [h]; trivial
    exact ((completes_remove_iff host).mp hcomplete).1
  have hmu : c = { c with mu := .free } := by rw [← hfree]
  rw [run_remove_eq hfree] at h
  obtain ⟨c₁, hbody, rfl⟩ := released_eq_ok h
  rw [removeBody] at hbody
  obtain ⟨_, c₂, hloop, hlast⟩ := run_bind_ok hbody
  obtain ⟨-, keys, hosts, hmem⟩ := run_removeReplicas host (List.range c.replicas) (locked c)
  rw [hloop, memory_ok] at hmem
  subst hmem
  cases hlast
  exact ⟨keys, hosts, by rw [hmu]; rfl⟩

/-- One reader more than before. -/
def withReader (c : ConsistenceHash) : ConsistenceHash :=
  { c with mu := { c.mu with readers := c.mu.readers + 1 } }

theorem run_balance_held {c : ConsistenceHash} (hwriter : c.mu.writer = true) (url : String)
    (r : Option Utils.Request) : EStateM.run (balance url r) c = .error .blocked c := by
  have hrlock : EStateM.run rlock c = .error .blocked c := by
    simp [EStateM.run, rlock, HasMutex.mutex, hwriter]
  rw [balance, EStateM.run_bind, hrlock]

/-- Unless a writer has the lock, `Balance` takes it for reading and looks the
key of the request up on the ring. -/
theorem run_balance {c : ConsistenceHash} (hwriter : c.mu.writer = false) (url : String)
    (r : Option Utils.Request) :
    EStateM.run (balance url r) c =
      if c.keys = [] then .ok (.error .cantFindAnyHost) c.withReader
      else
        match balanceKey url r with
        | .error e => .error e c.withReader
        | .ok key => .ok (.ok (c.hosts.get (c.keys.getD
            (searchInts c.keys (c.hash key.toUTF8.data.toList).toNat % c.keys.length) 0) ""))
            c.withReader := by
  have hrlock : EStateM.run rlock c = .ok () c.withReader := by
    simp [EStateM.run, rlock, HasMutex.mutex, HasMutex.setMutex, hwriter, withReader]
  rw [balance, EStateM.run_bind, hrlock]
  dsimp only
  rw [EStateM.run_bind, EStateM.run_get]
  dsimp only
  rw [run_ite]
  have hsame : c.withReader.keys = c.keys := rfl
  rw [hsame]
  by_cases hkeys : c.keys = []
  · rw [if_pos hkeys, if_pos hkeys]
    rfl
  · rw [if_neg hkeys, if_neg hkeys, EStateM.run_bind]
    cases balanceKey url r <;> rfl

/-- The key of the ring on which a text falls. -/
def keyFor (c : ConsistenceHash) (text : String) : Nat :=
  c.keys.getD (searchInts c.keys (c.hash text.toUTF8.data.toList).toNat % c.keys.length) 0

theorem keyFor_mem {c : ConsistenceHash} (hkeys : c.keys ≠ []) (text : String) :
    c.keyFor text ∈ c.keys := by
  have hlt := Nat.mod_lt (searchInts c.keys (c.hash text.toUTF8.data.toList).toNat)
    (List.length_pos_iff.mpr hkeys)
  rw [keyFor, List.getD_eq_getElem?_getD, List.getElem?_eq_getElem hlt]
  exact List.getElem_mem hlt

/-- The host answered is the one of the key on which the client falls, or the empty
text when the ring has none for it. -/
theorem run_balance_ok {c c' : ConsistenceHash} {url : String} {r : Option Utils.Request}
    {host : String} (hrun : EStateM.run (balance url r) c = .ok (.ok host) c') :
    ∃ text, balanceKey url r = .ok text ∧ c.keys ≠ [] ∧
      host = c.hosts.get (c.keyFor text) "" := by
  cases hwriter : c.mu.writer with
  | true =>
      rw [run_balance_held hwriter] at hrun
      cases hrun
  | false =>
      rw [run_balance hwriter] at hrun
      by_cases hkeys : c.keys = []
      · rw [if_pos hkeys] at hrun
        cases hrun
      · rw [if_neg hkeys] at hrun
        cases hkey : balanceKey url r with
        | error e =>
            rw [hkey] at hrun
            cases hrun
        | ok text =>
            rw [hkey] at hrun
            cases hrun
            exact ⟨text, rfl, hkeys, rfl⟩

/-- The host answered is the one under some key, missing hosts being empty. -/
theorem mem_of_run_balance {c c' : ConsistenceHash} {url : String} {r : Option Utils.Request}
    {host : String} (hrun : EStateM.run (balance url r) c = .ok (.ok host) c') :
    ∃ key ∈ c.keys, host = c.hosts.get key "" := by
  obtain ⟨text, -, hkeys, hhost⟩ := run_balance_ok hrun
  exact ⟨_, keyFor_mem hkeys text, hhost⟩

/-- However it ends, `Balance` touches nothing but the lock. -/
theorem memory_balance (url : String) (r : Option Utils.Request) (c : ConsistenceHash) :
    ∃ mu, memory (EStateM.run (balance url r) c) = { c with mu := mu } := by
  cases hwriter : c.mu.writer with
  | true =>
      rw [run_balance_held hwriter]
      exact ⟨c.mu, rfl⟩
  | false =>
      rw [run_balance hwriter]
      refine ⟨{ c.mu with readers := c.mu.readers + 1 }, ?_⟩
      split
      · rfl
      · cases balanceKey url r <;> rfl

end ConsistenceHash
end Balancing
end VermouthGateway
