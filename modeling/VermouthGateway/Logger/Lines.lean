import VermouthGateway.Logger.Archives

/-!
# Slicing by lines

The line count of a file starts at one, before anything is written.  So a file is
archived when it has one line less than configured.

* `CutsAt` is what is configured: archives of `maxLine` messages.
* `Filled` is the invariant of a run.
* `runEvents_cutsAt_iff`: a run is cut so only before its first archive.
-/

namespace VermouthGateway
namespace Logger

open Go

/-- Line slicing, and no other rule. -/
def byLine (n : Int) (format : String) : LogArgs where
  format := format
  maxSize := 0
  maxLine := n
  dateSlice := ""

/-- Every archive holds `n` messages, and the current file at most as many. -/
structure CutsAt (n : Int) (fn : String) (w : World) : Prop where
  archives : ∀ a ∈ w.renamed, (a.2.length : Int) = n
  current_le : ((w.files.get fn []).length : Int) ≤ n

def FileEvent.isWrite : FileEvent → Bool
  | .write _ => true
  | .restart => false

/-- The message is formatted as one line. -/
def FileEvent.SingleLine (serverName format : String) : FileEvent → Prop
  | .write msg => '\n' ∉ (messageFormat serverName format msg).toList
  | .restart => True

/-- A line that is written ends in the one line end that it has. -/
theorem count_messageLine {serverName format : String} {msg : Message}
    (hsingle : '\n' ∉ (messageFormat serverName format msg).toList) :
    (messageLine serverName format msg).toList.count '\n' = 1 := by
  rw [messageLine, String.toList_append, List.count_append, List.count_eq_zero_of_not_mem hsingle]
  decide

/-- The journal after some writes of single lines.  The first archive is made at the `n`th
write, and is one line short. -/
structure Filled (n : Int) (writes : Nat) (j : Journal) : Prop where
  newlines_eq : newlines j.current = j.current.length
  current_le : (j.current.length : Int) ≤ n
  archives : (j.archives = [] ∧ j.current.length = writes ∧ (writes : Int) < n) ∨
    (n ≤ writes ∧ ∃ a ∈ j.archives, (a.2.length : Int) ≠ n)

namespace Filled

variable (clock : Nat → Int) (zone : Int → DateTime) {serverName format : String}
variable {n : Int} {writes : Nat} {j : Journal}

theorem started (hn : 1 ≤ n) : Filled n 0 (Journal.started clock) where
  newlines_eq := rfl
  current_le := by
    rw [Journal.started, List.length_nil]
    omega
  archives := Or.inl ⟨rfl, rfl, by omega⟩

theorem restart (h : Filled n writes j) : Filled n writes (j.restart clock) where
  newlines_eq := h.newlines_eq
  current_le := h.current_le
  archives := h.archives

theorem write_eq (hn : 1 ≤ n) (j : Journal) (text : String) :
    j.write clock zone (byLine n format) text = (j.sliceByLine clock zone n).append text := by
  have hline : n ≠ 0 := by omega
  simp only [Journal.write, Journal.slice, byLine, ne_eq, not_true_eq_false, if_false, hline,
    not_false_eq_true, if_true]

/-- One more line, and maybe an archive before it. -/
theorem write (hn : 1 ≤ n) (h : Filled n writes j) {text : String}
    (htext : text.toList.count '\n' = 1) :
    Filled n (writes + 1) (j.write clock zone (byLine n format) text) := by
  rw [write_eq clock zone hn, Journal.sliceByLine, h.newlines_eq]
  by_cases hdue : 1 + (j.current.length : Int) ≥ n
  · rw [if_pos hdue]
    have hone : newlines [text] = 1 := by simpa [newlines] using htext
    refine ⟨hone, by simpa [Journal.append, Journal.rotate] using hn, Or.inr ?_⟩
    rcases h.archives with ⟨-, hlen, hlt⟩ | ⟨hle, a, ha, hshort⟩
    · -- the first archive
      refine ⟨by omega, _, List.mem_append_right _ (List.mem_singleton_self _), ?_⟩
      exact fun hfull : (j.current.length : Int) = n => by omega
    · exact ⟨by omega, a, List.mem_append_left _ ha, hshort⟩
  · rw [if_neg hdue]
    have hlen : (j.append text).current.length = j.current.length + 1 := List.length_append
    refine ⟨?_, by omega, ?_⟩
    · rw [hlen, Journal.append, newlines_append, h.newlines_eq, htext]
    rcases h.archives with ⟨hnone, hwrites, hlt⟩ | ⟨hle, hshort⟩
    · exact Or.inl ⟨hnone, by omega, by omega⟩
    · exact Or.inr ⟨by omega, hshort⟩

/-- A whole run, with restarts. -/
theorem run (hn : 1 ≤ n) (h : Filled n writes j) {events : List FileEvent}
    (hsingle : ∀ event ∈ events, event.SingleLine serverName format) :
    Filled n (writes + events.countP FileEvent.isWrite)
      (events.foldl (Journal.step clock zone serverName (byLine n format)) j) := by
  induction events generalizing writes j with
  | nil => exact h
  | cons event events ih =>
      have hrest : ∀ event ∈ events, event.SingleLine serverName format :=
        fun event hmem => hsingle event (List.mem_cons_of_mem _ hmem)
      have hfirst := hsingle event List.mem_cons_self
      cases event with
      | write msg =>
          have hwrite : Filled n (writes + 1)
              (j.step clock zone serverName (byLine n format) (.write msg)) :=
            h.write clock zone hn (count_messageLine hfirst)
          rw [List.countP_cons_of_pos rfl, Nat.add_comm _ 1, ← Nat.add_assoc]
          exact ih hwrite hrest
      | restart => exact ih (h.restart clock) hrest

/-- Only archives can be cut wrongly, and the first one is. -/
theorem cutsAt_iff (h : Filled n writes j) {fn : String} {w : World}
    (hfollows : Follows (byLine n format) fn w j) : CutsAt n fn w ↔ (writes : Int) < n := by
  have hcurrent : w.files.get fn [] = j.current := GoMap.get_of_lookup hfollows.lookup
  constructor
  · intro hcuts
    rcases h.archives with ⟨-, -, hlt⟩ | ⟨-, a, ha, hshort⟩
    · exact hlt
    · have hmem : (a.1.name fn "", a.2) ∈ w.renamed := by
        rw [hfollows.renamed]
        exact List.mem_map_of_mem ha
      exact absurd (hcuts.archives _ hmem) hshort
  · intro hlt
    rcases h.archives with ⟨hnone, -, -⟩ | ⟨hle, -⟩
    · refine ⟨?_, hcurrent ▸ h.current_le⟩
      rw [hfollows.renamed, hnone]
      exact fun a ha => absurd ha List.not_mem_nil
    · omega

end Filled

/-- A run is cut at `n` lines exactly when it has fewer than `n` writes, and so no
archive. -/
theorem runEvents_cutsAt_iff (clock : Nat → Int) (zone : Int → DateTime)
    (serverName format fn : String) {n : Int} (hn : 1 ≤ n) {events : List FileEvent}
    (hsingle : ∀ event ∈ events, event.SingleLine serverName format) :
    CutsAt n fn (runEvents clock zone serverName (byLine n format) events (started clock fn)) ↔
      (events.countP FileEvent.isWrite : Int) < n := by
  have hfollows := (follows_started clock (byLine n format) fn).runEvents clock zone serverName
    events
  have hfilled := (Filled.started clock hn).run clock zone hn hsingle
  rw [Nat.zero_add] at hfilled
  exact hfilled.cutsAt_iff hfollows

/-- Two lines, and a restart after the first. -/
def twoLines : List FileEvent := [.write (plain "a"), .restart, .write (plain "b")]

theorem singleLine_twoLines : ∀ event ∈ twoLines, event.SingleLine "" "%body%" := by
  intro event hevent
  simp only [twoLines, List.mem_cons, List.not_mem_nil, or_false] at hevent
  rcases hevent with rfl | rfl | rfl
  · rw [FileEvent.SingleLine]
    decide +kernel
  · exact trivial
  · rw [FileEvent.SingleLine]
    decide +kernel

theorem runEvents_cutsAt_three :
    CutsAt 3 "vermouth.log" (runEvents micros firstDay "" (byLine 3 "%body%") twoLines
      (started micros "vermouth.log")) :=
  (runEvents_cutsAt_iff micros firstDay "" "%body%" "vermouth.log" (by decide)
    singleLine_twoLines).mpr (by decide)

/-- With two lines an archive, the second write archives one line. -/
theorem archives_one_short :
    ¬ ∀ (clock : Nat → Int) (zone : Int → DateTime) (serverName format fn : String) (n : Int)
      (events : List FileEvent), 1 ≤ n →
      (∀ event ∈ events, event.SingleLine serverName format) →
      CutsAt n fn (runEvents clock zone serverName (byLine n format) events
        (started clock fn)) := by
  intro hall
  have hcuts := hall micros firstDay "" "%body%" "vermouth.log" 2 twoLines (by decide)
    singleLine_twoLines
  have hrenamed : (runEvents micros firstDay "" (byLine 2 "%body%") twoLines
      (started micros "vermouth.log")).renamed =
        [("vermouth.1970-01-01-12.00.00.log", ["a\r\n"])] := by decide +kernel
  have hlength := hcuts.archives ("vermouth.1970-01-01-12.00.00.log", ["a\r\n"])
    (hrenamed ▸ List.mem_singleton_self _)
  exact absurd hlength (by decide)

end Logger
end VermouthGateway
