import VermouthGateway.Acl.Verdict

/-!
# The record and the tree

A black list is kept twice: `Record` by the text of an entry, the tree by its
masked bits.  `Coupled` says that both hold the same networks.

* `Coupled.enforces`: a coupled tree enforces its record.
* `AclOp.Faithful`: what a call needs to keep the two in step.  A deletion takes
  its network out of the tree however it was written, but only its own text out
  of the record.
* `AclOp.run_coupled`: a faithful call returns and keeps them in step.
-/

namespace VermouthGateway
namespace Acl

open Go LongestMatch
open RadixTree

theorem Entry.network_eq (e : Entry) : network e.text = .ok (some (e.address, e.cidr)) :=
  e.spells.network_eq e.le

/-- A text spells one network. -/
theorem Entry.word_eq_of_text {e e' : Entry} (h : e.text = e'.text) : e.word = e'.word := by
  have hnetwork := e.network_eq
  rw [h, e'.network_eq] at hnetwork
  obtain ⟨haddress, hcidr⟩ := Prod.mk.inj (Option.some.inj (Except.ok.inj hnetwork))
  rw [word, word, haddress, hcidr]

theorem Entry.contains_iff (e : Entry) (key : BitVec 32) :
    Contains e.text key ↔ e.word <+: addressBits key := by
  rw [Entry.word, prefix_iff_masked e.le]
  constructor
  · rintro ⟨ip, n, hnetwork, hmask⟩
    rw [e.network_eq] at hnetwork
    cases hnetwork
    exact hmask
  · intro hmask
    exact ⟨e.address, e.cidr, e.network_eq, hmask⟩

/-- The record and the tree hold the same networks. -/
structure Coupled (t : RadixTree) (table : Table Bool String) : Prop where
  represents : Represents t table
  values : ∀ word value, table word = some value → value ≠ noValue
  entries : ∀ text ∈ t.record, ∃ e : Entry, e.text = text
  stored : ∀ word, (table word).isSome ↔ ∃ e : Entry, e.text ∈ t.record ∧ e.word = word

theorem coupled_newRadixTree : Coupled newRadixTree fun _ => none where
  represents := represents_newRadixTree
  values _ _ h := nomatch h
  entries text htext := absurd htext Finmap.notMem_empty
  stored word := by
    constructor
    · intro h
      cases h
    · rintro ⟨e, hrecorded, -⟩
      exact absurd hrecorded Finmap.notMem_empty

theorem Coupled.enforces {t : RadixTree} {table : Table Bool String} (h : Coupled t table) :
    Enforces t := by
  refine Enforces.of_represents h.represents h.values fun key => ?_
  constructor
  · rintro ⟨word, hword, hsome⟩
    obtain ⟨e, hrecorded, rfl⟩ := (h.stored word).mp hsome
    exact ⟨e.text, hrecorded, (e.contains_iff key).mpr hword⟩
  · rintro ⟨text, hrecorded, hcontains⟩
    obtain ⟨e, rfl⟩ := h.entries text hrecorded
    exact ⟨e.word, (e.contains_iff key).mp hcontains, (h.stored e.word).mpr ⟨e, hrecorded, rfl⟩⟩

/-- An insertion is clean, and the network of a deletion is recorded under no
other text. -/
def AclOp.Faithful (t : RadixTree) : AclOp → Prop
  | .add e => CleanAdd t e.address e.cidr
  | .delete e => ∀ e' : Entry, e'.text ∈ t.record → e'.word = e.word → e'.text = e.text

/-- A value is written on a word and a text of that word is recorded. -/
theorem Coupled.record_insert {t t' : RadixTree} {table : Table Bool String} (e : Entry)
    (h : Coupled t table)
    (hrep : Represents t' (Function.update table e.word (some e.text)))
    (hrecord : t'.record = t.record) :
    Coupled { t' with record := t'.record.insert e.text true }
      (Function.update table e.word (some e.text)) where
  represents := hrep.setRecord _
  values word value hvalue := by
    by_cases hword : word = e.word
    · subst hword
      rw [Function.update_self] at hvalue
      cases hvalue
      exact e.text_ne
    · rw [Function.update_of_ne hword] at hvalue
      exact h.values word value hvalue
  entries text htext := by
    rcases Finmap.mem_insert.mp htext with rfl | htext
    · exact ⟨e, rfl⟩
    · rw [hrecord] at htext
      exact h.entries text htext
  stored word := by
    by_cases hword : word = e.word
    · subst hword
      rw [Function.update_self]
      exact ⟨fun _ => ⟨e, Finmap.mem_insert.mpr (Or.inl rfl), rfl⟩, fun _ => rfl⟩
    · rw [Function.update_of_ne hword, h.stored word]
      constructor
      · rintro ⟨e', hrecorded, rfl⟩
        rw [← hrecord] at hrecorded
        exact ⟨e', Finmap.mem_insert.mpr (Or.inr hrecorded), rfl⟩
      · rintro ⟨e', hrecorded, rfl⟩
        rcases Finmap.mem_insert.mp hrecorded with htext | hrecorded
        · exact absurd (Entry.word_eq_of_text htext) hword
        · rw [hrecord] at hrecorded
          exact ⟨e', hrecorded, rfl⟩

/-- A word is taken out with the only text recorded for it. -/
theorem Coupled.record_erase {t t' : RadixTree} {table : Table Bool String} (e : Entry)
    (h : Coupled t table) (honly : AclOp.Faithful t (.delete e))
    (hrep : Represents t' (Function.update table e.word none))
    (hrecord : t'.record = t.record) :
    Coupled { t' with record := t'.record.erase e.text }
      (Function.update table e.word none) where
  represents := hrep.setRecord _
  values word value hvalue := by
    by_cases hword : word = e.word
    · subst hword
      rw [Function.update_self] at hvalue
      cases hvalue
    · rw [Function.update_of_ne hword] at hvalue
      exact h.values word value hvalue
  entries text htext := by
    have hold := (Finmap.mem_erase.mp htext).2
    rw [hrecord] at hold
    exact h.entries text hold
  stored word := by
    by_cases hword : word = e.word
    · subst hword
      rw [Function.update_self]
      constructor
      · intro hsome
        cases hsome
      · rintro ⟨e', hrecorded, hword⟩
        obtain ⟨hne, hold⟩ := Finmap.mem_erase.mp hrecorded
        rw [hrecord] at hold
        -- no other spelling of the network was recorded
        exact absurd (honly e' hold hword) hne
    · rw [Function.update_of_ne hword, h.stored word]
      constructor
      · rintro ⟨e', hrecorded, rfl⟩
        -- another network has another text, so its spelling is still recorded
        have hne : e'.text ≠ e.text := fun htext => hword (Entry.word_eq_of_text htext)
        rw [← hrecord] at hrecorded
        exact ⟨e', Finmap.mem_erase.mpr ⟨hne, hrecorded⟩, rfl⟩
      · rintro ⟨e', hrecorded, rfl⟩
        have hold := (Finmap.mem_erase.mp hrecorded).2
        rw [hrecord] at hold
        exact ⟨e', hold, rfl⟩

/-- A network that is not stored is under no text in the record either. -/
theorem Coupled.absent {t t' : RadixTree} {table : Table Bool String} (h : Coupled t table)
    {word : List Bool} (hnone : table word = none)
    (hrep : Represents t' (Function.update table word none)) (hrecord : t'.record = t.record) :
    Coupled t' (Function.update table word none) := by
  have hsame : Function.update table word none = table := by
    rw [← hnone, Function.update_eq_self]
  rw [hsame] at hrep ⊢
  refine ⟨hrep, h.values, ?_, ?_⟩
  · rw [hrecord]
    exact h.entries
  · rw [hrecord]
    exact h.stored

/-- A faithful call returns and keeps record and tree in step. -/
theorem AclOp.run_coupled {t : RadixTree} {table : Table Bool String} (h : Coupled t table)
    (op : AclOp) (hfaithful : op.Faithful t) :
    ∃ t', EStateM.run op.run t = .ok () t' ∧ Coupled t' (op.apply table) := by
  cases op with
  | add e =>
      obtain ⟨t', hrun, hrep, hrecord⟩ :=
        h.represents.run_insert e.address e.le e.text_ne hfaithful
      refine ⟨_, ?_, h.record_insert e hrep hrecord⟩
      rw [AclOp.run, EStateM.run_bind, run_add_entry, hrun]
      rfl
  | delete e =>
      obtain ⟨t', hrun, hrep, hrecord⟩ := h.represents.run_delete e.address e.pos e.le
      rw [AclOp.run, EStateM.run_bind, run_deleteText_entry, hrun]
      cases hstored : table (networkBits e.address e.cidr) with
      | some value => exact ⟨_, rfl, h.record_erase e hfaithful hrep hrecord⟩
      | none => exact ⟨t', rfl, h.absent hstored hrep hrecord⟩

/-- Every call is faithful in the tree it runs on. -/
def FaithfulAll : RadixTree → List AclOp → Prop
  | _, [] => True
  | t, op :: ops => op.Faithful t ∧ FaithfulAll (memory (EStateM.run op.run t)) ops

theorem run_coupled {t : RadixTree} {table : Table Bool String} {ops : List AclOp}
    (h : Coupled t table) (hfaithful : FaithfulAll t ops) :
    ∃ t', EStateM.run (runHistory ops) t = .ok () t' ∧
      Coupled t' (ops.foldl AclOp.apply table) := by
  induction ops generalizing t table with
  | nil => exact ⟨t, rfl, h⟩
  | cons op ops ih =>
      obtain ⟨hop, hrest⟩ := hfaithful
      obtain ⟨t₁, hrun, h₁⟩ := op.run_coupled h hop
      rw [hrun] at hrest
      obtain ⟨t', hrun', h'⟩ := ih h₁ hrest
      refine ⟨t', ?_, h'⟩
      have hsplit : runHistory (op :: ops) = op.run >>= fun _ => runHistory ops := rfl
      rw [hsplit, EStateM.run_bind, hrun]
      exact hrun'

end Acl
end VermouthGateway
