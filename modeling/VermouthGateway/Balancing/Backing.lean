import VermouthGateway.Balancing.RoundRobin
import VermouthGateway.Foundation.Sweep
import VermouthGateway.Go.Slice

/-!
# The array behind a round-robin balancer

`Hosts` of the round-robin balancer returns the slice it works on, and `Remove`
shifts the elements of its array in place.  Whoever ranges over such a slice
sees the shifts, which the lists of `RoundRobin` cannot show; this file has the
same balancer on slices.

* `toList` forgets the array; `add_toList` and `remove_toList` say that the two
  balancers do the same on lists.
* `run_remove_window`: a removal seen through a longer slice of the array is
  `Sweep.State.remove`.
-/

namespace VermouthGateway
namespace Balancing
namespace Backing

open Go

structure RoundRobin where
  mu : RWMutex
  idx : UInt64
  hosts : Slice

/-- A receiver and the arrays its slices point into. -/
structure Held (β : Type) where
  self : β
  arrays : Arrays String

instance : HasMutex (Held RoundRobin) where
  mutex r := r.self.mu
  setMutex mu r := { r with self := { r.self with mu := mu } }
  mutex_setMutex _ _ := rfl
  setMutex_setMutex _ _ _ := rfl
  setMutex_mutex _ := rfl

/-- `NewRoundRobin`: the slice of the caller is kept, not copied. -/
def newRoundRobin (hosts : Slice) : RoundRobin := ⟨.free, 0, hosts⟩

namespace RoundRobin

/-- `RoundRobin.Add`. -/
def add (host : String) : Eff (Held RoundRobin) Unit := withLock do
  modify fun r =>
    if host ∈ r.arrays.elems r.self.hosts then r
    else
      let (hosts, arrays) := r.arrays.append r.self.hosts [host]
      ⟨{ r.self with hosts := hosts }, arrays⟩

/-- `RoundRobin.Remove`: `append(r.hosts[:i], r.hosts[i+1:]...)`. -/
def remove (host : String) : Eff (Held RoundRobin) Unit := withLock do
  let r ← get
  match (r.arrays.elems r.self.hosts).idxOf? host with
  | none => pure ()
  | some i =>
      let front ← ofPure (r.self.hosts.slice 0 i)
      let back ← ofPure (r.self.hosts.slice (i + 1) r.self.hosts.len)
      let (hosts, arrays) := r.arrays.append front (r.arrays.elems back)
      set (Held.mk { r.self with hosts := hosts } arrays)

end RoundRobin

namespace Held

/-- The balancer on lists. -/
def toList (r : Held RoundRobin) : Balancing.RoundRobin :=
  ⟨r.self.mu, r.self.idx, r.arrays.elems r.self.hosts⟩

/-- The first `n` cells of the array of the hosts, as a list to sweep. -/
def cells (r : Held RoundRobin) (n : Nat) : Sweep.State String :=
  ⟨r.arrays.window r.self.hosts.array r.self.hosts.offset n, r.self.hosts.len⟩

/-- The balancer after `Remove`. -/
def removed (r : Held RoundRobin) (host : String) : Held RoundRobin :=
  match (r.arrays.elems r.self.hosts).idxOf? host with
  | none => r
  | some i =>
      ⟨{ r.self with
          hosts := { r.self.hosts with
            len := r.self.hosts.len - 1
            le_cap := (Nat.sub_le _ _).trans r.self.hosts.le_cap } },
        r.arrays.copy r.self.hosts.array (r.self.hosts.offset + i)
          ((r.arrays.elems r.self.hosts).drop (i + 1))⟩

end Held

theorem lt_of_idxOf?_elems {m : Arrays String} {s : Slice} {host : String} {i : Nat}
    (hi : (m.elems s).idxOf? host = some i) : i < s.len := by
  obtain ⟨hlt, -⟩ := List.findIdx?_eq_some_iff_findIdx_eq.mp hi
  rwa [Arrays.length_elems] at hlt

/-- The slices of `Remove` stay in bounds, and the elements behind the host fit
where they are moved to. -/
theorem append_around (m : Arrays String) (s : Slice) {i : Nat} (hi : i < s.len) :
    ∃ front back, s.slice 0 i = .ok front ∧ s.slice (i + 1) s.len = .ok back ∧
      m.append front (m.elems back) =
        ({ s with len := s.len - 1, le_cap := (Nat.sub_le _ _).trans s.le_cap },
          m.copy s.array (s.offset + i) ((m.elems s).drop (i + 1))) := by
  have hcap := s.le_cap
  have hfront : 0 ≤ i ∧ i ≤ s.cap := ⟨Nat.zero_le i, by omega⟩
  have hback : i + 1 ≤ s.len ∧ s.len ≤ s.cap := ⟨hi, hcap⟩
  have hslice : s.slice (i + 1) s.len = .ok ⟨s.array, s.offset + (i + 1), s.len - (i + 1),
      s.cap - (i + 1), Nat.sub_le_sub_right hback.2 (i + 1)⟩ := dif_pos hback
  refine ⟨_, _, dif_pos hfront, hslice, ?_⟩
  have hmoved : m.elems ⟨s.array, s.offset + (i + 1), s.len - (i + 1), s.cap - (i + 1),
      Nat.sub_le_sub_right hback.2 (i + 1)⟩ = (m.elems s).drop (i + 1) := by
    rw [Arrays.elems_slice hslice (Nat.le_refl _), List.take_of_length_le (by simp)]
  have hlen : i - 0 + ((m.elems s).drop (i + 1)).length = s.len - 1 := by
    rw [List.length_drop, Arrays.length_elems]
    omega
  have hroom : i - 0 + ((m.elems s).drop (i + 1)).length ≤ s.cap - 0 := by omega
  rw [hmoved, Arrays.append, dif_pos hroom]
  congr 1
  exact Slice.mk.injEq .. ▸ ⟨rfl, rfl, hlen, rfl⟩

theorem run_remove {r : Held RoundRobin} (hfree : r.self.mu = .free) (host : String) :
    EStateM.run (RoundRobin.remove host) r = .ok () (r.removed host) := by
  obtain ⟨⟨mu, idx, hosts⟩, arrays⟩ := r
  obtain rfl : mu = .free := hfree
  rw [RoundRobin.remove, run_withLock_free rfl, EStateM.run_bind, EStateM.run_get, Held.removed]
  dsimp only [locked, HasMutex.setMutex]
  cases hi : (arrays.elems hosts).idxOf? host with
  | none => rfl
  | some i =>
      obtain ⟨front, back, hfront, hback, happend⟩ :=
        append_around arrays hosts (lt_of_idxOf?_elems hi)
      dsimp only
      rw [hfront, hback, EStateM.run_bind, run_ofPure_ok]
      dsimp only
      rw [EStateM.run_bind, run_ofPure_ok]
      dsimp only
      rw [happend]
      rfl

/-- Through a slice of the array that is at least as long as the hosts, a
removal is the one of the sweep. -/
theorem cells_removed (r : Held RoundRobin) (host : String) {n : Nat}
    (hn : r.self.hosts.len ≤ n) : (r.removed host).cells n = (r.cells n).remove host := by
  have hlist : (r.cells n).list = r.arrays.elems r.self.hosts := Arrays.window_take hn
  rw [Held.removed, Sweep.State.remove, hlist]
  cases hi : (r.arrays.elems r.self.hosts).idxOf? host with
  | none => rfl
  | some i =>
      have hlt := lt_of_idxOf?_elems hi
      have hmoved : ((r.arrays.elems r.self.hosts).drop (i + 1)).length =
          r.self.hosts.len - 1 - i := by
        rw [List.length_drop, Arrays.length_elems]
        omega
      dsimp only
      rw [Held.cells, Arrays.window_copy (by omega), hmoved, Sweep.State.shiftOut, hlist,
        Nat.add_sub_cancel' (by omega)]
      rfl

theorem list_cells (r : Held RoundRobin) {n : Nat} (hn : r.self.hosts.len ≤ n) :
    (r.cells n).list = r.arrays.elems r.self.hosts := Arrays.window_take hn

theorem len_removed_le (r : Held RoundRobin) (host : String) :
    (r.removed host).self.hosts.len ≤ r.self.hosts.len := by
  rw [Held.removed]
  split
  · exact Nat.le_refl _
  · exact Nat.sub_le _ _

/-- On lists `Remove` erases the host. -/
theorem elems_removed (r : Held RoundRobin) (host : String) :
    (r.removed host).arrays.elems (r.removed host).self.hosts =
      (r.arrays.elems r.self.hosts).erase host := by
  have hlen : (r.cells r.self.hosts.len).len ≤ (r.cells r.self.hosts.len).cells.length := by
    simp [Held.cells]
  rw [← list_cells _ (len_removed_le r host), cells_removed r host (Nat.le_refl _),
    Sweep.State.list_remove hlen, list_cells r (Nat.le_refl _)]

theorem toList_removed (r : Held RoundRobin) (host : String) :
    (r.removed host).toList = { r.toList with hosts := r.toList.hosts.erase host } := by
  have hself : (r.removed host).self.mu = r.self.mu ∧ (r.removed host).self.idx = r.self.idx := by
    rw [Held.removed]
    split <;> exact ⟨rfl, rfl⟩
  rw [Held.toList, elems_removed, hself.1, hself.2]
  rfl

/-- The two balancers remove alike. -/
theorem remove_toList (host : String) (r : Held RoundRobin) :
    embed Held.toList (EStateM.run (RoundRobin.remove host) r) =
      EStateM.run (Balancing.RoundRobin.remove host) r.toList := by
  by_cases hfree : r.self.mu = .free
  · have hlist : r.toList.mu = .free := hfree
    rw [run_remove hfree, embed_ok, toList_removed, Balancing.RoundRobin.run_remove hlist]
  · have hlist : HasMutex.mutex r.toList ≠ .free := hfree
    rw [RoundRobin.remove, run_withLock_held hfree, Balancing.RoundRobin.remove,
      run_withLock_held hlist]
    rfl

/-- The two balancers add alike. -/
theorem add_toList (host : String) (r : Held RoundRobin) :
    embed Held.toList (EStateM.run (RoundRobin.add host) r) =
      EStateM.run (Balancing.RoundRobin.add host) r.toList := by
  by_cases hfree : r.self.mu = .free
  · have hlist : r.toList.mu = .free := hfree
    obtain ⟨⟨mu, idx, hosts⟩, arrays⟩ := r
    obtain rfl : mu = .free := hfree
    rw [RoundRobin.add, run_withLock_modify rfl, embed_ok, Balancing.RoundRobin.run_add hlist]
    congr 1
    by_cases hmem : host ∈ arrays.elems hosts
    · simp [Balancing.RoundRobin.addedHosts, Held.toList, locked, unlock, HasMutex.setMutex,
        HasMutex.mutex, RWMutex.free, hmem]
    · simp [Balancing.RoundRobin.addedHosts, Held.toList, locked, unlock, HasMutex.setMutex,
        HasMutex.mutex, RWMutex.free, hmem, Arrays.elems_append]
  · have hlist : HasMutex.mutex r.toList ≠ .free := hfree
    rw [RoundRobin.add, run_withLock_held hfree, Balancing.RoundRobin.add, run_withLock_held hlist]
    rfl

end Backing
end Balancing
end VermouthGateway
