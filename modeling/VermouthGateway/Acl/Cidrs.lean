import VermouthGateway.Acl.Verdict

/-!
# Lists of networks

Well-formed texts `a.b.c.d/n` with every length from 0 to 32, added one after
the other to a fresh tree.  Such a tree has never given a node back, so each
insertion is clean.

* `Cidr` is a text with its network, and `Cidr.Holds` says which addresses lie
  in it.
* `run_addAll_cidrs`: the insertions return, and the tree stores the networks.
* `Grown.verdict`: an address is forbidden when some added network holds it.
-/

namespace VermouthGateway
namespace Acl

open Go LongestMatch
open RadixTree

/-- A well-formed text `a.b.c.d/n` with octets up to 255 and `n ≤ 32`. -/
structure Cidr where
  text : String
  address : BitVec 32
  length : Nat
  spells : Spells text address length
  le : length ≤ 32

namespace Cidr

/-- The network, as a word. -/
def word (c : Cidr) : List Bool := networkBits c.address c.length

/-- The network holds the address: they agree but for the last `32 - n` bits. -/
def Holds (c : Cidr) (key : BitVec 32) : Prop :=
  key.toNat / 2 ^ (32 - c.length) = c.address.toNat / 2 ^ (32 - c.length)

instance (c : Cidr) (key : BitVec 32) : Decidable (c.Holds key) :=
  inferInstanceAs (Decidable (_ = _))

theorem holds_iff (c : Cidr) (key : BitVec 32) : c.Holds key ↔ c.word <+: addressBits key :=
  (prefix_iff_div c.le).symm

theorem text_ne (c : Cidr) : c.text ≠ noValue := c.spells.text_ne

theorem network_eq (c : Cidr) : network c.text = .ok (some (c.address, c.length)) :=
  c.spells.network_eq c.le

/-- A text is read in one way. -/
theorem eq_of_text {c c' : Cidr} (h : c.text = c'.text) : c = c' := by
  have hnetwork := c.network_eq
  rw [h, c'.network_eq] at hnetwork
  obtain ⟨haddress, hlength⟩ := Prod.mk.inj (Option.some.inj (Except.ok.inj hnetwork))
  cases c
  cases c'
  cases h
  cases haddress
  cases hlength
  rfl

end Cidr

/-- An entry with a network of its own is one of them. -/
def Entry.toCidr (e : Entry) : Cidr := ⟨e.text, e.address, e.cidr, e.spells, e.le⟩

/-! ## Insertions without a free list -/

namespace RadixTree

variable {t : RadixTree}

theorem free_newNode (h : t.free = none) : t.newNode.2.free = none := by
  rw [newNode, h]
  exact h

theorem free_attach (h : t.free = none) (node : Ptr) (bit : Bool) :
    (t.attach node bit).2.free = none :=
  free_newNode h

theorem free_extendPath (h : t.free = none) (bits : List Bool) (node : Ptr) :
    (extendPath bits node t).2.free = none := by
  induction bits generalizing t node with
  | nil => exact h
  | cons b bits ih => exact ih (free_attach h node b) _

theorem free_insertPath (h : t.free = none) (bits : List Bool) (root : Ptr) (value : String) :
    (t.insertPath bits root value).free = none := by
  rw [insertPath]
  exact free_extendPath h _ _

end RadixTree

/-- Nothing is recycled, so nothing keeps an old link. -/
theorem cleanAdd_of_free {t : RadixTree} (h : t.free = none) (key : BitVec 32) (n : Nat) :
    CleanAdd t key n := by
  intro root _
  rw [h]
  cases (t.descendPath (networkBits key n) root).1 <;> trivial

/-- The tree stores a table and has never given a node back. -/
structure Grown (t : RadixTree) (table : Table Bool String) : Prop where
  represents : Represents t table
  free : t.free = none
  values : ∀ word value, table word = some value → value ≠ noValue

theorem grown_newRadixTree : Grown newRadixTree fun _ => none where
  represents := represents_newRadixTree
  free := rfl
  values _ _ h := nomatch h

/-- The table after one more network. -/
def Cidr.store (table : Table Bool String) (c : Cidr) : Table Bool String :=
  Function.update table c.word (some c.text)

/-- The networks of a list, each with the text stored last for it. -/
def storedTable (cs : List Cidr) : Table Bool String :=
  cs.foldl Cidr.store fun _ => none

theorem Grown.run_insert {t : RadixTree} {table : Table Bool String} (h : Grown t table)
    (key : BitVec 32) {n : Nat} (hn : n ≤ 32) {value : String} (hvalue : value ≠ noValue) :
    ∃ t', EStateM.run (insert key (netMask n) value) t = .ok () t' ∧
      Grown t' (Function.update table (networkBits key n) (some value)) := by
  obtain ⟨t', hrun, hrep, -⟩ :=
    h.represents.run_insert key hn hvalue (cleanAdd_of_free h.free key n)
  refine ⟨t', hrun, hrep, ?_, ?_⟩
  · rw [run_insert_eq] at hrun
    cases hroot : t.root with
    | none =>
        rw [hroot] at hrun
        cases hrun
    | some root =>
        rw [hroot] at hrun
        cases hrun
        rw [insertBelow_eq t key hn]
        exact free_insertPath h.free _ _ _
  · intro word other hword
    by_cases heq : word = networkBits key n
    · rw [heq, Function.update_self] at hword
      cases hword
      exact hvalue
    · rw [Function.update_of_ne heq] at hword
      exact h.values word other hword

/-- `Add` of a network. -/
theorem run_add_cidr (c : Cidr) (value : String) (t : RadixTree) :
    EStateM.run (add c.text value) t =
      match EStateM.run (insert c.address (netMask c.length) value) t with
      | .ok _ t' => .ok none { t' with record := t'.record.insert c.text true }
      | .error halt t' => .error halt t' := by
  rw [run_add_network c.network_eq, run_insert_eq]
  cases t.root with
  | none => rfl
  | some root =>
      dsimp only
      rw [(SameEntries.insertBelow t _ _ value root).record]

/-- Networks added one after the other. -/
theorem Grown.run_addAll {t : RadixTree} {table : Table Bool String} (h : Grown t table)
    (cs : List Cidr) :
    ∃ t', EStateM.run (addAll (cs.map Cidr.text)) t = .ok () t' ∧
      Grown t' (cs.foldl Cidr.store table) := by
  rw [addAll]
  induction cs generalizing t table with
  | nil => exact ⟨t, rfl, h⟩
  | cons c cs ih =>
      obtain ⟨t₁, hinsert, h₁⟩ := h.run_insert c.address c.le c.text_ne
      have hgrown : Grown { t₁ with record := t₁.record.insert c.text true }
          (c.store table) := ⟨h₁.represents.setRecord _, h₁.free, h₁.values⟩
      obtain ⟨t', hrun, h'⟩ := ih hgrown
      refine ⟨t', ?_, h'⟩
      rw [List.map_cons, run_forEach_cons, run_add_cidr, hinsert]
      exact hrun

theorem run_addAll_cidrs (cs : List Cidr) :
    ∃ t, EStateM.run (addAll (cs.map Cidr.text)) newRadixTree = .ok () t ∧
      Grown t (storedTable cs) :=
  grown_newRadixTree.run_addAll cs

/-- A word is stored when it is the network of some entry of the list. -/
theorem isSome_storedTable (cs : List Cidr) (word : List Bool) :
    (storedTable cs word).isSome ↔ ∃ c ∈ cs, c.word = word := by
  induction cs using List.reverseRecOn with
  | nil => simp [storedTable]
  | append_singleton cs c ih =>
      have hstep : storedTable (cs ++ [c]) = c.store (storedTable cs) := by
        rw [storedTable, storedTable, List.foldl_append]
        rfl
      rw [hstep, Cidr.store]
      by_cases hword : word = c.word
      · subst hword
        rw [Function.update_self]
        exact ⟨fun _ => ⟨c, by simp, rfl⟩, fun _ => rfl⟩
      · rw [Function.update_of_ne hword, ih]
        constructor
        · rintro ⟨c', hmem, heq⟩
          exact ⟨c', by simp [hmem], heq⟩
        · rintro ⟨c', hmem, heq⟩
          rcases List.mem_append.mp hmem with hmem | hmem
          · exact ⟨c', hmem, heq⟩
          · rw [List.mem_singleton.mp hmem] at heq
            exact absurd heq.symm hword

/-- A lookup in the tree of a list finds a value when some entry holds the
address. -/
theorem Grown.search_cases {t : RadixTree} {cs : List Cidr} (h : Grown t (storedTable cs))
    (key : BitVec 32) :
    ∃ value, t.search key = some value ∧ (value ≠ noValue ↔ ∃ c ∈ cs, c.Holds key) := by
  obtain ⟨value, hsearch, hvalue⟩ := h.represents.search_cases h.values key
  refine ⟨value, hsearch, hvalue.trans ?_⟩
  constructor
  · rintro ⟨word, hword, hstored⟩
    obtain ⟨c, hmem, rfl⟩ := (isSome_storedTable cs word).mp hstored
    exact ⟨c, hmem, (c.holds_iff key).mpr hword⟩
  · rintro ⟨c, hmem, hholds⟩
    exact ⟨c.word, (c.holds_iff key).mp hholds, (isSome_storedTable cs c.word).mpr ⟨c, hmem, rfl⟩⟩

/-- An address is forbidden when some entry of the list holds it. -/
theorem Grown.verdict {t : RadixTree} {cs : List Cidr} (h : Grown t (storedTable cs))
    {text : String} {key : BitVec 32} (htext : Writes text key) :
    ∃ verdict, t.accessControl text = .ok verdict ∧
      (verdict = true ↔ ∃ c ∈ cs, c.Holds key) := by
  obtain ⟨value, hsearch, hvalue⟩ := h.search_cases key
  rw [accessControl_writes htext, hsearch]
  refine ⟨_, rfl, ?_⟩
  rw [← hvalue, bne_iff_ne]

end Acl
end VermouthGateway
