import VermouthGateway.Balancing.Calls
import VermouthGateway.Balancing.Ring

/-!
# Calls on a ring

`Add` and `Remove` do not look whether the host is there.

* `ring_wellFormed`: as long as a removed host is there exactly once, every call
  returns and the ring stays well formed; any other removal ends that.
* `moves_few_keys`: adding or removing a host moves no key between two others.
-/

namespace VermouthGateway
namespace Balancing

open Go CircularLookup Runs

theorem separates_involved {hash : Hash} {hosts : List String} {calls : List HostCall}
    (hnodup : ((hosts ++ calls.map HostCall.host).flatMap (nodeHashes hash)).Nodup) :
    Separates hash (involved hosts calls) := by
  refine (separates_of_nodup hnodup).mono ?_
  rintro q (hq | ⟨call, hcall, rfl⟩)
  · exact List.mem_append_left _ hq
  · exact List.mem_append_right hosts (List.mem_map_of_mem hcall)

/-! ## The ring along a history -/

/-- The ring over the hosts of the history, with its lock free. -/
structure Kept (hash : Hash) (names : Set String) (s : History ConsistenceHash) : Prop where
  free : s.current.mu = .free
  ring : RingOf hash s.hosts s.current
  known : ∀ q ∈ s.hosts, q ∈ names

namespace Kept

variable {hash : Hash} {names : Set String} {s : History ConsistenceHash} {call : HostCall}

theorem separates (h : Kept hash names s) (hsep : Separates hash names) :
    Separates hash {q | q ∈ s.hosts} :=
  hsep.mono h.known

/-- The removed host, if any, is there exactly once. -/
theorem call_returns (h : Kept hash names s) (call : HostCall) (hsep : Separates hash names)
    (hname : call.host ∈ names) (honce : ∀ host, call = .remove host → s.hosts.count host = 1) :
    ∃ c', EStateM.run call.onRing s.current = .ok () c' ∧
      Kept hash names ⟨c', call.after s.hosts⟩ := by
  have hknown : ∀ q ∈ call.after s.hosts, q ∈ names := by
    intro q hq
    rcases HostCall.mem_of_mem_after hq with hq | rfl
    · exact h.known q hq
    · exact hname
  cases call with
  | add host =>
      obtain ⟨c', hrun, hfree, -, hring⟩ := h.ring.run_add h.free (hsep.mono hknown)
      exact ⟨c', hrun, hfree, hring, hknown⟩
  | remove host =>
      have hcount := honce host rfl
      have hmem : host ∈ s.hosts := List.count_pos_iff.mp (by omega)
      obtain ⟨c', hrun, hfree, -, hring⟩ := h.ring.run_remove h.free (h.separates hsep) hmem
      exact ⟨c', hrun, hfree, hring.ringOf hcount, hknown⟩

theorem step {s' : History ConsistenceHash} (h : Kept hash names s) (hsep : Separates hash names)
    (hname : call.host ∈ names) (honce : ∀ host, call = .remove host → s.hosts.count host = 1)
    (hstep : CallStep HostCall.onRing s call s') : Kept hash names s' := by
  obtain ⟨c', hrun, hkept⟩ := h.call_returns _ hsep hname honce
  rw [hstep.runs] at hrun
  cases hrun
  rw [← hstep.hosts_eq] at hkept
  exact hkept

theorem mono {names' : Set String} (h : Kept hash names s) (hsub : names ⊆ names') :
    Kept hash names' s :=
  ⟨h.free, h.ring, fun q hq => hsub (h.known q hq)⟩

theorem start {hosts : List String} (hsep : Separates hash names)
    (hknown : ∀ q ∈ hosts, q ∈ names) : Kept hash names ⟨newRing hash hosts, hosts⟩ := by
  obtain ⟨hring, hfree, -⟩ := ringOf_newRing (hsep.mono hknown)
  exact ⟨hfree, hring, hknown⟩

end Kept

/-! ## Well-formed rings -/

/-- What every reader of the ring counts on. -/
structure WellFormed (s : History ConsistenceHash) : Prop where
  sorted : s.current.keys.Pairwise (· ≤ ·)
  named : ∀ k ∈ s.current.keys, ∃ host ∈ s.hosts, s.current.hosts.lookup k = some host
  answered : s.current.keys ≠ [] → ∀ url r c',
    EStateM.run (ConsistenceHash.balance url r) s.current ≠ .ok (.ok "") c'

/-- The host that is added has a name; the one that is removed is there exactly
once. -/
def HostCall.Careful (hosts : List String) : HostCall → Prop
  | .add host => host ≠ ""
  | .remove host => hosts.count host = 1

instance (hosts : List String) : DecidablePred (HostCall.Careful hosts)
  | .add host => inferInstanceAs (Decidable (host ≠ ""))
  | .remove host => inferInstanceAs (Decidable (hosts.count host = 1))

theorem HostCall.Careful.named {call : HostCall} {hosts : List String}
    (h : call.Careful hosts) (hnamed : "" ∉ hosts) : "" ∉ call.after hosts := by
  intro hempty
  cases call with
  | add host =>
      rcases List.mem_append.mp hempty with hold | hnew
      · exact hnamed hold
      · exact h (List.mem_singleton.mp hnew).symm
  | remove host => exact hnamed (List.mem_of_mem_filter hempty)

theorem HostCall.Careful.once {call : HostCall} {hosts : List String} (h : call.Careful hosts) :
    ∀ host, call = .remove host → hosts.count host = 1 := by
  rintro host rfl
  exact h

/-- The call returns, the ring is well formed after it, and nothing has changed
if it was the removal of an absent host. -/
def HostCall.Keeps (s : History ConsistenceHash) (call : HostCall) : Prop :=
  ∃ c', EStateM.run call.onRing s.current = .ok () c' ∧
    WellFormed ⟨c', call.after s.hosts⟩ ∧
    ∀ host, call = .remove host → host ∉ s.hosts → c' = s.current

namespace Kept

variable {hash : Hash} {names : Set String} {s : History ConsistenceHash} {call : HostCall}

theorem wellFormed (h : Kept hash names s) (hnamed : "" ∉ s.hosts) : WellFormed s where
  sorted := h.ring.sorted
  named k hk := by
    obtain ⟨host, hhost, hnode⟩ := (h.ring.mem_keys_iff k).mp hk
    exact ⟨host, hhost, (h.ring.lookup_iff k host).mpr ⟨hhost, hnode⟩⟩
  answered hkeys url r c' hrun := by
    have hhosts : s.hosts ≠ [] := fun hnil => hkeys (h.ring.keys_eq_nil_iff.mpr hnil)
    have hwriter : s.current.mu.writer = false := by rw [h.free]; rfl
    cases hkey : ConsistenceHash.balanceKey url r with
    | error e =>
        rw [ConsistenceHash.run_balance hwriter, if_neg hkeys, hkey] at hrun
        cases hrun
    | ok key =>
        obtain ⟨g, hg, hanswer, -⟩ := h.ring.run_balance hwriter hhosts _ _ hkey
        rw [hrun] at hanswer
        cases hanswer
        exact hnamed hg

/-- A host without a name is answered for the text of its own virtual node. -/
theorem not_wellFormed (h : Kept hash names s) (hempty : "" ∈ s.hosts) : ¬ WellFormed s := by
  intro hwell
  have hwriter : s.current.mu.writer = false := by rw [h.free]; rfl
  have hne : s.hosts ≠ [] := List.ne_nil_of_mem hempty
  have hnode : textHash hash (toString 0 ++ "") ∈ nodeHashes hash "" :=
    List.mem_map_of_mem (List.mem_range.mpr (by decide))
  have howner := (h.ring.lookup_iff _ "").mpr ⟨hempty, hnode⟩
  obtain ⟨g, -, hrun, hanswers⟩ :=
    h.ring.run_balance hwriter hne (toString 0 ++ "") none rfl
  obtain rfl := hanswers.unique ⟨_, isSuccessor_self (mem_placed howner), howner⟩
  exact hwell.answered (fun hnil => hne (h.ring.keys_eq_nil_iff.mp hnil)) _ _ _ hrun

theorem keeps_iff (h : Kept hash names s) (hnamed : "" ∉ s.hosts) (hsep : Separates hash names)
    (hname : call.host ∈ names) : call.Keeps s ↔ call.Careful s.hosts := by
  constructor
  · rintro ⟨c', hrun, hwell, hsame⟩
    cases call with
    | add host =>
        rintro rfl
        obtain ⟨c'', hrun', hkept⟩ := h.call_returns _ hsep hname (fun _ hadd => by cases hadd)
        rw [hrun] at hrun'
        cases hrun'
        exact hkept.not_wellFormed (List.mem_append_right _ List.mem_cons_self) hwell
    | remove host =>
        by_contra hcount
        rcases Nat.eq_zero_or_pos (s.hosts.count host) with hzero | hpos
        · rw [hsame host rfl (List.count_eq_zero.mp hzero)] at hrun
          exact h.ring.remove_absent hrun
        · have hmany : 1 < s.hosts.count host := lt_of_le_of_ne hpos (Ne.symm hcount)
          obtain ⟨c'', hrun', -, -, hring⟩ :=
            h.ring.run_remove h.free (h.separates hsep) (List.count_pos_iff.mp hpos)
          have hc : c' = c'' := by
            have hboth := hrun.symm.trans hrun'
            cases hboth
            rfl
          subst hc
          obtain ⟨k, hk, hnone⟩ := hring.dangling (h.separates hsep) hmany
          obtain ⟨q, -, hq⟩ := hwell.named k hk
          rw [hnone] at hq
          cases hq
  · intro hcareful
    obtain ⟨c', hrun, hkept⟩ := h.call_returns _ hsep hname hcareful.once
    refine ⟨c', hrun, hkept.wellFormed (hcareful.named hnamed), ?_⟩
    intro host hcall habsent
    have hcount := hcareful.once host hcall
    rw [List.count_eq_zero.mpr habsent] at hcount
    cases hcount

end Kept

/-! ## Runs -/

/-- A call that returns, of a careful caller. -/
def CarefulStep (s : History ConsistenceHash) (call : HostCall) (s' : History ConsistenceHash) :
    Prop :=
  CallStep HostCall.onRing s call s' ∧ call.Careful s.hosts

/-- In every run of careful calls the ring is well formed, and it stays so over
the next call exactly when that one is careful too. -/
theorem ring_wellFormed {hash : Hash} {hosts : List String} {calls : List HostCall}
    {s : History ConsistenceHash} (hnamed : "" ∉ hosts)
    (hsep : Separates hash (involved hosts calls))
    (hrun : Run CarefulStep ⟨newRing hash hosts, hosts⟩ calls s) :
    WellFormed s ∧ ∀ call : HostCall, Separates hash (involved hosts (calls ++ [call])) →
      (call.Keeps s ↔ call.Careful s.hosts) := by
  have hstart : Kept hash (involved hosts calls) ⟨newRing hash hosts, hosts⟩ :=
    Kept.start hsep fun q hq => Or.inl hq
  obtain ⟨hkept, hnamed'⟩ : Kept hash (involved hosts calls) s ∧ "" ∉ s.hosts := by
    refine Run.invariant_of_mem (P := fun s => Kept hash (involved hosts calls) s ∧ "" ∉ s.hosts)
      hrun ?_ ⟨hstart, hnamed⟩
    rintro call hcall t t' ⟨hkept, hnamed⟩ ⟨hstep, hcareful⟩
    refine ⟨hkept.step hsep (mem_involved hcall) hcareful.once hstep, ?_⟩
    rw [hstep.hosts_eq]
    exact hcareful.named hnamed
  refine ⟨hkept.wellFormed hnamed', fun call hsep' => ?_⟩
  have hwider := hkept.mono (involved_subset_append hosts calls [call])
  exact hwider.keeps_iff hnamed' hsep'
    (mem_involved (List.mem_append_right calls List.mem_cons_self))

theorem ring_wellFormed_two_hosts : ∃ s,
    Run CarefulStep ⟨newRing checksumIEEE ["10.0.0.1:80"], ["10.0.0.1:80"]⟩
      [.add "10.0.0.2:80"] s ∧ WellFormed s ∧ (HostCall.add "10.0.0.3:80").Keeps s := by
  have hsep : Separates checksumIEEE
      (involved ["10.0.0.1:80"] [.add "10.0.0.2:80", .add "10.0.0.3:80"]) :=
    separates_involved (by decide +kernel)
  have hsep' : Separates checksumIEEE (involved ["10.0.0.1:80"] [.add "10.0.0.2:80"]) :=
    hsep.mono (involved_subset_append ["10.0.0.1:80"] [.add "10.0.0.2:80"] [.add "10.0.0.3:80"])
  obtain ⟨c', hreturns, -⟩ := Kept.call_returns
    (Kept.start hsep' fun q hq => Or.inl hq) (.add "10.0.0.2:80") hsep'
    (mem_involved List.mem_cons_self) (fun host hadd => by cases hadd)
  have hrun : Run CarefulStep ⟨newRing checksumIEEE ["10.0.0.1:80"], ["10.0.0.1:80"]⟩
      [.add "10.0.0.2:80"] ⟨c', ["10.0.0.1:80", "10.0.0.2:80"]⟩ :=
    .single ⟨⟨hreturns, rfl⟩, by decide⟩
  obtain ⟨hwell, hkeeps⟩ := ring_wellFormed (by decide) hsep' hrun
  exact ⟨_, hrun, hwell, (hkeeps (.add "10.0.0.3:80") hsep).mpr (by decide : "10.0.0.3:80" ≠ "")⟩

/-- Removing a host from a ring that has none cuts a slice beyond its end. -/
theorem absent_removal_panics :
    Separates checksumIEEE (involved [] [.remove "10.0.0.1:80"]) ∧
      EStateM.run (HostCall.remove "10.0.0.1:80").onRing (newRing checksumIEEE []) =
        .error (.panic .sliceBounds) (newRing checksumIEEE []) :=
  ⟨separates_involved (by decide +kernel), rfl⟩

/-! ## Keys that move -/

/-- `Balance(url, nil)` answers a host. -/
def ConsistenceHash.Balances (c : ConsistenceHash) (url host : String) : Prop :=
  ∃ c', EStateM.run (ConsistenceHash.balance url none) c = .ok (.ok host) c'

namespace RingOf

variable {hash : Hash} {hosts : List String} {c c' : ConsistenceHash} {host : String}

theorem balances_iff (h : RingOf hash hosts c) (hfree : c.mu = .free) (url g : String) :
    c.Balances url g ↔ Answers c.hosts.lookup (textHash hash url) g := by
  have hwriter : c.mu.writer = false := by rw [hfree]; rfl
  constructor
  · rintro ⟨c', hrun⟩
    have hne : hosts ≠ [] := by
      rintro rfl
      rw [h.run_balance_empty hwriter] at hrun
      cases hrun
    obtain ⟨g', -, hrun', hanswers⟩ :=
      h.run_balance hwriter hne url none rfl
    rw [hrun] at hrun'
    cases hrun'
    exact hanswers
  · intro hanswers
    obtain ⟨k, -, hk⟩ := id hanswers
    have hne : hosts ≠ [] := List.ne_nil_of_mem ((h.lookup_iff k g).mp hk).1
    obtain ⟨g', -, hrun', hanswers'⟩ :=
      h.run_balance hwriter hne url none rfl
    rw [hanswers.unique hanswers']
    exact ⟨_, hrun'⟩

/-- A ring over one host more is an extension of the ring. -/
theorem extends_append (h : RingOf hash hosts c) (h' : RingOf hash (hosts ++ [host]) c') :
    Extends c.hosts.lookup c'.hosts.lookup host where
  kept {k q} hk := by
    obtain ⟨hq, hnode⟩ := (h.lookup_iff k q).mp hk
    exact (h'.lookup_iff k q).mpr ⟨List.mem_append_left _ hq, hnode⟩
  new {k q} hk := by
    obtain ⟨hq, hnode⟩ := (h'.lookup_iff k q).mp hk
    rcases List.mem_append.mp hq with hold | hnew
    · exact Or.inl ((h.lookup_iff k q).mpr ⟨hold, hnode⟩)
    · exact Or.inr (List.mem_singleton.mp hnew)

/-- And the ring without a host has it as an extension. -/
theorem extends_filter (h : RingOf hash hosts c)
    (h' : RingOf hash (hosts.filter (· ≠ host)) c') :
    Extends c'.hosts.lookup c.hosts.lookup host where
  kept {k q} hk := by
    obtain ⟨hq, hnode⟩ := (h'.lookup_iff k q).mp hk
    exact (h.lookup_iff k q).mpr ⟨List.mem_of_mem_filter hq, hnode⟩
  new {k q} hk := by
    obtain ⟨hq, hnode⟩ := (h.lookup_iff k q).mp hk
    by_cases heq : q = host
    · exact Or.inr heq
    · exact Or.inl ((h'.lookup_iff k q).mpr
        ⟨List.mem_filter.mpr ⟨hq, decide_eq_true heq⟩, hnode⟩)

end RingOf

/-- A history of calls that fit keeps the ring, and each host on it once. -/
theorem kept_of_fitting {hash : Hash} {hosts : List String} {calls : List HostCall}
    {s : History ConsistenceHash} (hnodup : hosts.Nodup)
    (hsep : Separates hash (involved hosts calls))
    (hrun : Run (FittingStep HostCall.onRing) ⟨newRing hash hosts, hosts⟩ calls s) :
    Kept hash (involved hosts calls) s ∧ s.hosts.Nodup := by
  have hstart : Kept hash (involved hosts calls) ⟨newRing hash hosts, hosts⟩ :=
    Kept.start hsep fun q hq => Or.inl hq
  refine Run.invariant_of_mem (P := fun s => Kept hash (involved hosts calls) s ∧ s.hosts.Nodup)
    hrun ?_ ⟨hstart, hnodup⟩
  rintro call hcall t t' ⟨hkept, hnodup⟩ ⟨hstep, hfits⟩
  refine ⟨hkept.step hsep (mem_involved hcall) (hfits.once hnodup) hstep, ?_⟩
  rw [hstep.hosts_eq]
  exact HostCall.nodup_after hnodup hfits

/-- Adding a host to a ring, or removing one, moves only keys of that host. -/
theorem moves_few_keys {hash : Hash} {hosts : List String} {calls : List HostCall}
    {s : History ConsistenceHash} {host : String} (hnodup : hosts.Nodup)
    (hsep : Separates hash (involved hosts (calls ++ [.add host])))
    (hrun : Run (FittingStep HostCall.onRing) ⟨newRing hash hosts, hosts⟩ calls s)
    {url g : String} (hbefore : s.current.Balances url g) :
    (host ∉ s.hosts → ∃ c', EStateM.run (ConsistenceHash.add host) s.current = .ok () c' ∧
      (c'.Balances url g ∨ c'.Balances url host)) ∧
    (host ∈ s.hosts → g ≠ host → ∃ c',
      EStateM.run (ConsistenceHash.remove host) s.current = .ok () c' ∧ c'.Balances url g) := by
  have hnames := involved_subset_append hosts calls [.add host]
  obtain ⟨hkept, hnodup'⟩ := kept_of_fitting hnodup (hsep.mono hnames) hrun
  have hwider := hkept.mono hnames
  have hcall : HostCall.add host ∈ calls ++ [.add host] :=
    List.mem_append_right calls List.mem_cons_self
  have hname : host ∈ involved hosts (calls ++ [.add host]) := mem_involved hcall
  have hanswers := (hkept.ring.balances_iff hkept.free url g).mp hbefore
  constructor
  · intro habsent
    obtain ⟨c', hreturns, hkept'⟩ := hwider.call_returns (.add host) hsep hname
      (fun q hadd => by cases hadd)
    refine ⟨c', hreturns, ?_⟩
    have hafter := hkept.ring.extends_append hkept'.ring
    have hwriter : c'.mu.writer = false := congrArg RWMutex.writer hkept'.free
    obtain ⟨g', -, hrun', hanswers'⟩ := hkept'.ring.run_balance hwriter
      (List.append_ne_nil_of_right_ne_nil _ (List.cons_ne_nil host [])) url none rfl
    rcases hafter.answers hanswers hanswers' with rfl | rfl
    · exact Or.inl ⟨_, hrun'⟩
    · exact Or.inr ⟨_, hrun'⟩
  · intro hpresent hne
    obtain ⟨c', hreturns, hkept'⟩ := hwider.call_returns (.remove host) hsep hname
      (HostCall.Fitting.once hpresent hnodup')
    refine ⟨c', hreturns, (hkept'.ring.balances_iff hkept'.free url g).mpr ?_⟩
    exact (hkept.ring.extends_filter hkept'.ring).answers_before hanswers hne

theorem moves_few_keys_second_host : ∃ c',
    EStateM.run (ConsistenceHash.add "10.0.0.2:80") (newRing checksumIEEE ["10.0.0.1:80"]) =
      .ok () c' ∧ (c'.Balances "/users" "10.0.0.1:80" ∨ c'.Balances "/users" "10.0.0.2:80") := by
  have hsep : Separates checksumIEEE (involved ["10.0.0.1:80"] [.add "10.0.0.2:80"]) :=
    separates_involved (by decide +kernel)
  obtain ⟨hring, hfree, -⟩ := ringOf_newRing (hsep.mono fun q hq => Or.inl hq)
  obtain ⟨g, hg, hanswer, -⟩ := hring.run_balance
    (congrArg RWMutex.writer hfree) (List.cons_ne_nil _ _) "/users" none rfl
  obtain rfl := List.mem_singleton.mp hg
  exact (moves_few_keys (List.nodup_singleton _) hsep (.nil _) ⟨_, hanswer⟩).1 (by decide)

end Balancing
end VermouthGateway
