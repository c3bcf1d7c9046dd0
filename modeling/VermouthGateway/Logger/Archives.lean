import VermouthGateway.Logger.Journal

/-!
# No line is lost

A line is lost when an archive replaces one of the same name.  Names are stamps
(`Rotation.name_eq_iff`), so a run loses nothing exactly when the rotations that
are due in it have different stamps.

* `NoLineLost`: the files of a run hold what was accepted, each line once.
* `writeAll_noLineLost_iff`: when that is so, for every run.
* `writeAll_replaces`: two archives made within the same ten-thousandth of a second
  have one name, and the first is gone.
-/

namespace VermouthGateway
namespace Logger

open Go

/-- The archives and the current file are different files, and together they hold the
accepted texts, each once and in order. -/
structure NoLineLost (fn : String) (texts : List String) (w : World) : Prop where
  distinct : (w.renamed.map Prod.fst ++ [fn]).Nodup
  kept : ((w.renamed.map Prod.fst ++ [fn]).flatMap fun name => w.files.get name []) = texts

/-- The rotations that are due while `lines` are written to a new file. -/
def rotationsDue (clock : Nat → Int) (zone : Int → DateTime) (cfg : LogArgs)
    (lines : List String) : List Rotation :=
  (lines.foldl (Journal.write clock zone cfg) (Journal.started clock)).archives.map Prod.fst

/-- Names are different when stamps are. -/
theorem nodup_names_iff (fn dateSlice : String) (rs : List Rotation) :
    (rs.map (Rotation.name fn dateSlice)).Nodup ↔ (rs.map (Rotation.stamp dateSlice)).Nodup := by
  simp only [List.Nodup, List.pairwise_map, ne_eq, Rotation.name_eq_iff]

namespace Follows

variable {cfg : LogArgs} {fn : String} {w : World} {j : Journal}

theorem names (h : Follows cfg fn w j) :
    w.renamed.map Prod.fst = (j.archives.map Prod.fst).map (Rotation.name fn cfg.dateSlice) := by
  rw [h.renamed, List.map_map, List.map_map]
  rfl

/-- The archives of different names hold what the archives of the journal hold. -/
theorem flatMap_archives (h : Follows cfg fn w j) (hnodup : (w.renamed.map Prod.fst).Nodup) :
    (w.renamed.map Prod.fst).flatMap (fun name => w.files.get name []) =
      j.archives.flatMap Prod.snd := by
  have hcontent : ∀ a ∈ w.renamed, w.files.get a.1 [] = a.2 := by
    intro a ha
    have hne : a.1 ≠ fn := by
      rw [h.renamed] at ha
      obtain ⟨b, -, rfl⟩ := List.mem_map.mp ha
      exact Rotation.name_ne fn cfg.dateSlice b.1
    rw [GoMap.get, h.files, GoMap.lookup_insert_eq, if_neg hne,
      GoMap.lookup_insertAll_of_mem hnodup ha, Option.getD_some]
  calc (w.renamed.map Prod.fst).flatMap (fun name => w.files.get name [])
      = w.renamed.flatMap (fun a => w.files.get a.1 []) := List.flatMap_map _ _ _
    _ = w.renamed.flatMap Prod.snd := List.flatMap_congr hcontent
    _ = j.archives.flatMap Prod.snd := by rw [h.renamed, List.flatMap_map]

/-- What the files hold, and when. -/
theorem noLineLost_iff (h : Follows cfg fn w j) :
    NoLineLost fn j.texts w ↔ (j.stamps cfg.dateSlice).Nodup := by
  have hnames : (w.renamed.map Prod.fst).Nodup ↔ (j.stamps cfg.dateSlice).Nodup := by
    rw [h.names, nodup_names_iff, List.map_map]
    rfl
  rw [← hnames]
  constructor
  · intro hkept
    exact (List.nodup_append.mp hkept.distinct).1
  · intro hnodup
    have hfn : fn ∉ w.renamed.map Prod.fst := by
      intro hmem
      rw [h.names] at hmem
      obtain ⟨r, -, hr⟩ := List.mem_map.mp hmem
      exact Rotation.name_ne fn cfg.dateSlice r hr
    refine ⟨List.nodup_append.mpr ⟨hnodup, List.nodup_singleton fn, ?_⟩, ?_⟩
    · intro a ha b hb
      rw [List.mem_singleton.mp hb]
      exact fun heq => hfn (heq ▸ ha)
    · rw [List.flatMap_append, h.flatMap_archives hnodup, List.flatMap_singleton, GoMap.get,
        h.lookup, Option.getD_some, Journal.texts]

end Follows

/-- No accepted line is lost exactly when the rotations that are due have different
stamps. -/
theorem writeAll_noLineLost_iff (clock : Nat → Int) (zone : Int → DateTime)
    (serverName : String) (cfg : LogArgs) (fn : String) (msgs : List Message) :
    NoLineLost fn (writeAll clock zone serverName cfg msgs (started clock fn)).1
        (writeAll clock zone serverName cfg msgs (started clock fn)).2 ↔
      ((rotationsDue clock zone cfg (msgs.map (messageLine serverName cfg.format))).map
        (Rotation.stamp cfg.dateSlice)).Nodup := by
  obtain ⟨htexts, hfollows⟩ := (follows_started clock cfg fn).writeAll clock zone serverName msgs
  have hiff := hfollows.noLineLost_iff
  rw [Journal.texts_writeAll] at hiff
  rw [htexts, rotationsDue, List.map_map]
  exact hiff

/-- Archives of one line, and nothing else. -/
def everyLine : LogArgs where
  format := "%body%"
  maxSize := 0
  maxLine := 1
  dateSlice := ""

/-- A clock that is read every microsecond. -/
def micros (n : Nat) : Int := 1000 * n

/-- Three writes, the archives they make, and the files in the end. -/
theorem writeAll_everyLine :
    let run := writeAll micros firstDay "" everyLine [plain "a", plain "b", plain "c"]
      (started micros "vermouth.log")
    run.1 = ["a\r\n", "b\r\n", "c\r\n"] ∧
      run.2.renamed.map Prod.fst = List.replicate 3 "vermouth.1970-01-01-12.00.00.log" ∧
      run.2.files.get "vermouth.1970-01-01-12.00.00.log" [] = ["b\r\n"] ∧
      run.2.files.get "vermouth.log" [] = ["c\r\n"] := by
  decide +kernel

/-- The three archives have one name, and the first line is in no file. -/
theorem writeAll_replaces :
    ¬ ∀ (clock : Nat → Int) (zone : Int → DateTime) (serverName : String) (cfg : LogArgs)
      (fn : String) (msgs : List Message), (∀ n, clock n ≤ clock (n + 1)) →
      replace fn (ext fn) "" ++ ext fn = fn →
      NoLineLost fn (writeAll clock zone serverName cfg msgs (started clock fn)).1
        (writeAll clock zone serverName cfg msgs (started clock fn)).2 := by
  intro hall
  have hclock : ∀ n, micros n ≤ micros (n + 1) := by
    intro n
    simp only [micros]
    omega
  have hname : replace "vermouth.log" (ext "vermouth.log") "" ++ ext "vermouth.log" =
      "vermouth.log" := by decide +kernel
  have hkept := hall micros firstDay "" everyLine "vermouth.log"
    [plain "a", plain "b", plain "c"] hclock hname
  obtain ⟨haccepted, hnames, harchive, hcurrent⟩ := writeAll_everyLine
  have htexts := hkept.kept
  rw [hnames, haccepted] at htexts
  simp only [List.replicate, List.cons_append, List.nil_append, List.flatMap_cons,
    List.flatMap_nil, harchive, hcurrent] at htexts
  exact absurd htexts (by decide)

end Logger
end VermouthGateway
